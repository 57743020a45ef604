import Mathlib.Data.List.Nodup

namespace Tenure
variable {τ : Type}

structure Claim (τ : Type) where
  token : τ
  expires : Nat
deriving DecidableEq

structure Ledger (τ : Type) where
  clock : Nat
  current : Option (Claim τ)
  issued : List (Claim τ)
  settled : List τ

def Ledger.tokens (l : Ledger τ) : List τ := l.issued.map Claim.token

def Ledger.Outstanding (l : Ledger τ) (c : Claim τ) : Prop :=
  c ∈ l.issued ∧ c.token ∉ l.settled

def Ledger.Held (l : Ledger τ) (t : τ) : Prop := ∃ c, l.current = some c ∧ c.token = t

inductive Step (l : Ledger τ) : Ledger τ → Prop
  | idle : Step l l
  | tick (n : Nat) : Step l { l with clock := l.clock + n }
  | grant (c : Claim τ) (fresh : c.token ∉ l.tokens)
      (vacant : ∀ d, l.current = some d → d.expires ≤ l.clock) :
      Step l { l with current := some c, issued := c :: l.issued }
  | settle (c : Claim τ) (h : l.current = some c) :
      Step l { l with current := none, settled := c.token :: l.settled }

structure Sound (l : Ledger τ) : Prop where
  distinct : l.tokens.Nodup
  current : ∀ c, l.current = some c → c ∈ l.issued
  settled : ∀ t ∈ l.settled, t ∈ l.tokens
  unexpired : ∀ c, l.Outstanding c → l.clock < c.expires → l.current = some c

theorem token_mem {l : Ledger τ} {c : Claim τ} (h : c ∈ l.issued) : c.token ∈ l.tokens :=
  List.mem_map_of_mem h

theorem Sound.eq_of_token {l : Ledger τ} (hs : Sound l) {c d : Claim τ} (hc : c ∈ l.issued)
    (hd : d ∈ l.issued) (h : c.token = d.token) : c = d :=
  List.inj_on_of_nodup_map hs.distinct hc hd h

theorem Sound.unique {l : Ledger τ} (hs : Sound l) {c d : Claim τ} (hc : l.Outstanding c)
    (hd : l.Outstanding d) (hcu : l.clock < c.expires) (hdu : l.clock < d.expires) : c = d := by
  have h := hs.unexpired c hc hcu
  rw [hs.unexpired d hd hdu] at h
  exact (Option.some.inj h).symm

theorem Step.sound {l l' : Ledger τ} (h : Step l l') (hs : Sound l) : Sound l' := by
  cases h with
  | idle => exact hs
  | tick n =>
    exact ⟨hs.distinct, hs.current, hs.settled,
      fun c hc hu => hs.unexpired c hc (Nat.lt_of_le_of_lt (Nat.le_add_right _ n) hu)⟩
  | grant c fresh vacant =>
    refine ⟨List.nodup_cons.mpr ⟨fresh, hs.distinct⟩, ?_, ?_, ?_⟩
    · intro d hd
      obtain rfl : c = d := by simpa using hd
      exact List.mem_cons_self
    · intro t ht
      exact List.mem_cons_of_mem _ (hs.settled t ht)
    · rintro d ⟨hd, hn⟩ hu
      rcases List.mem_cons.mp hd with rfl | hd
      · rfl
      -- an older claim that is unexpired would be the current one, which has expired
      · have := vacant d (hs.unexpired d ⟨hd, hn⟩ hu)
        have hu : l.clock < d.expires := hu
        omega
  | settle c hc =>
    refine ⟨hs.distinct, by simp, ?_, ?_⟩
    · intro t ht
      rcases List.mem_cons.mp ht with rfl | ht
      · exact token_mem (hs.current c hc)
      · exact hs.settled t ht
    · rintro d ⟨hd, hn⟩ hu
      have hn : d.token ≠ c.token ∧ d.token ∉ l.settled := by simpa using hn
      have h := hs.unexpired d ⟨hd, hn.2⟩ hu
      obtain rfl : c = d := Option.some.inj (hc.symm.trans h)
      exact absurd rfl hn.1

theorem Step.tokens {l l' : Ledger τ} (h : Step l l') {t : τ} (ht : t ∈ l.tokens) :
    t ∈ l'.tokens := by
  cases h with
  | idle => exact ht
  | tick _ => exact ht
  | grant c _ _ => exact List.mem_cons_of_mem _ ht
  | settle _ _ => exact ht

-- a token that was issued and lost the cell is never current again
theorem Step.superseded {l l' : Ledger τ} (h : Step l l') {t : τ} (ht : t ∈ l.tokens)
    (hn : ¬ l.Held t) : ¬ l'.Held t := by
  cases h with
  | idle => exact hn
  | tick _ => exact hn
  | grant c fresh _ =>
    rintro ⟨d, hd, rfl⟩
    obtain rfl : c = d := by simpa using hd
    exact fresh ht
  | settle _ _ =>
    rintro ⟨d, hd, _⟩
    simp at hd

end Tenure
