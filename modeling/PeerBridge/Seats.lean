import PeerBridge.Preservation
import PeerBridge.Scenario

namespace PeerBridge
open Checked Rows

structure MembershipRow.Sealed (P : Platform) (m : MembershipRow) : Prop where
  sha_eq : m.membershipSha256 = P.stableSha256 (membershipPayload m)
  left_iff : m.leftUtc.isSome = true ↔ m.status = .left

def RoleRow.Sealed (P : Platform) (q : RoleRow) : Prop :=
  q.roleSha256 = P.stableSha256 (rolePayload q)

def RoleRow.Same (q e : RoleRow) : Prop := q.roleId = e.roleId ∧ q.roleLabel = e.roleLabel

def SameSession (m : MembershipRow) (q : RoleRow) : Prop := q.roomSessionId = m.roomSessionId

structure Rooms.InStep (P : Platform) (r : Rooms) : Prop where
  paired : Paired MembershipRow.key RoleRow.key SameSession r.memberships r.roles
  members : ∀ m ∈ r.memberships, m.Sealed P
  roles : ∀ q ∈ r.roles, q.Sealed P

-- the two rows that one seat operation writes
structure Placed (P : Platform) (c : Ctx) (given : Bool) (r : Rooms) (m : MembershipRow)
    (q : RoleRow) : Prop where
  key_eq : q.key = m.key
  session_eq : SameSession m q
  member : m.Sealed P ∨ m ∈ r.memberships
  role : q.Sealed P
  drawn : m.roomSessionId = c.uuid.text ∨ ∃ e ∈ r.memberships, e.roomSessionId = m.roomSessionId
  kept : given = false → ∀ e, lookup RoleRow.key q.key r.roles = some e → q.Same e

inductive SeatMove (P : Platform) (c : Ctx) (given : Bool) (r r' : Rooms) : Prop
  | same (hm : r'.memberships = r.memberships) (hq : r'.roles = r.roles)
  | filled (hm : r'.memberships = r.memberships) (hq : r'.roles = (r.backfill P).roles)
  | placed (m : MembershipRow) (q : RoleRow) (h : Placed P c given r m q)
      (hm : r'.memberships = upsert MembershipRow.key m r.memberships)
      (hq : r'.roles = upsert RoleRow.key q r.roles)

section Moves
variable {P : Platform} {c : Ctx} {given : Bool} {r r' : Rooms} {m : MembershipRow} {q : RoleRow}

theorem backfilledRole_spec (m : MembershipRow) (o : Option RoleRow) :
    (backfilledRole P m o).key = m.key ∧ SameSession m (backfilledRole P m o) := ⟨rfl, rfl⟩

/-- The back-fill pairs every membership, of an older database too, and re-seals its role. -/
theorem Rooms.backfill_inStep (hm : (r.memberships.map MembershipRow.key).Nodup)
    (hq : (r.roles.map RoleRow.key).Nodup) (sealed : ∀ m ∈ r.memberships, m.Sealed P)
    (owned : ∀ q ∈ r.roles, ∃ m ∈ r.memberships, m.key = q.key) : (r.backfill P).InStep P := by
  refine ⟨fill_paired backfilledRole_spec hm hq owned, sealed, fun q hmem => ?_⟩
  obtain ⟨m, -, o, rfl⟩ := mem_fill (fun m o => (backfilledRole_spec m o).1) hm hq owned hmem
  rfl

theorem Rooms.backfill_same (hm : (r.memberships.map MembershipRow.key).Nodup)
    (hq : (r.roles.map RoleRow.key).Nodup) (hmem : q ∈ r.roles) :
    ∃ q' ∈ (r.backfill P).roles, q'.key = q.key ∧ q'.Same q := by
  have hl := @lookup_fill _ _ _ _ _ _ _ r.roles _ (fun m o => (@backfilledRole_spec P m o).1) hm q.key
  rw [lookup_of_mem hq hmem] at hl
  cases ha : lookup MembershipRow.key q.key r.memberships with
  | some m =>
    rw [ha] at hl
    exact ⟨_, lookup_mem hl, lookup_key hl, rfl, rfl⟩
  | none =>
    rw [ha] at hl
    exact ⟨q, lookup_mem hl, rfl, rfl, rfl⟩

theorem SeatMove.inStep (h : SeatMove P c given r r') (hr : r.InStep P) : r'.InStep P := by
  cases h with
  | same hm hq =>
    refine ⟨?_, hm ▸ hr.members, hq ▸ hr.roles⟩
    rw [hm, hq]
    exact hr.paired
  | filled hm hq =>
    have hb := Rooms.backfill_inStep hr.paired.left_keys hr.paired.right_keys hr.members
      hr.paired.owned
    refine ⟨?_, hm ▸ hr.members, hq ▸ hb.roles⟩
    rw [hm, hq]
    exact hb.paired
  | placed m q hp hm hq =>
    refine ⟨?_, fun x hx => ?_, fun x hx => ?_⟩
    · rw [hm, hq]
      exact hr.paired.upsert hp.key_eq hp.session_eq
    · rw [hm] at hx
      rcases mem_upsert hx with rfl | hx
      · exact hp.member.elim id (hr.members x)
      · exact hr.members x hx
    · rw [hq] at hx
      rcases mem_upsert hx with rfl | hx
      · exact hp.role
      · exact hr.roles x hx

theorem SeatMove.drawn (h : SeatMove P c given r r') (hm : m ∈ r'.memberships) :
    m.roomSessionId = c.uuid.text ∨ ∃ e ∈ r.memberships, e.roomSessionId = m.roomSessionId := by
  cases h with
  | same he | filled he => exact .inr ⟨m, he ▸ hm, rfl⟩
  | placed x q hp he =>
    rw [he] at hm
    rcases mem_upsert hm with rfl | hm
    · exact hp.drawn
    · exact .inr ⟨m, hm, rfl⟩

theorem SeatMove.role_kept (h : SeatMove P c false r r') (hr : r.InStep P) (hq : q ∈ r.roles) :
    ∃ q' ∈ r'.roles, q'.key = q.key ∧ q'.Same q := by
  cases h with
  | same _ he => exact ⟨q, he ▸ hq, rfl, rfl, rfl⟩
  | filled _ he =>
    rw [he]
    exact Rooms.backfill_same hr.paired.left_keys hr.paired.right_keys hq
  | placed m x hp _ he =>
    rw [he]
    by_cases hk : q.key = x.key
    · have hl : lookup RoleRow.key x.key r.roles = some q :=
        hk ▸ lookup_of_mem hr.paired.right_keys hq
      exact ⟨x, mem_upsert_self, hk.symm, hp.kept rfl q hl⟩
    · exact ⟨q, mem_upsert_of_ne hr.paired.right_keys hq hk, rfl, rfl, rfl⟩

end Moves

section Steps
variable {P : Platform} {c : Ctx} {r r' : Rooms} {s s' : Store} {m : MembershipRow} {q : RoleRow}
  {roomId agentId : String} {role : Option (String × Option String)} {now : Utc}

structure Cast (P : Platform) (scope : String) (roomId agentId session : String)
    (role : Option (String × Option String)) (r r' : Rooms) (q : RoleRow) : Prop where
  rooms_eq : r' = { r with roles := upsert RoleRow.key q r.roles }
  key_eq : q.key = (scope, roomId, agentId)
  session_eq : q.roomSessionId = session
  role_sealed : q.Sealed P
  kept : role = none → ∀ e, lookup RoleRow.key q.key r.roles = some e → q.Same e

theorem upsertRoomRole_cast {session : String}
    (h : upsertRoomRole P c roomId agentId session role now r = .ok (r', q)) :
    Cast P c.self.scope roomId agentId session role r r' q := by
  simp only [upsertRoomRole, bind_eq_ok, pure_eq_ok, Prod.mk.injEq] at h
  obtain ⟨⟨roleId, label⟩, hs, rfl, rfl⟩ := h
  refine ⟨rfl, rfl, rfl, rfl, ?_⟩
  rintro rfl e he
  change lookup RoleRow.key (c.self.scope, roomId, agentId) r.roles = some e at he
  simp only [seatRole, he, pure_eq_ok, Prod.mk.injEq] at hs
  exact ⟨hs.1.symm, hs.2.symm⟩

-- the two tables after the step hold the two rows
def SeatRows (r r' : Rooms) (m : MembershipRow) (q : RoleRow) : Prop :=
  r'.memberships = upsert MembershipRow.key m r.memberships ∧
    r'.roles = upsert RoleRow.key q r.roles

theorem Placed.move {given : Bool} (h : Placed P c given r m q ∧ SeatRows r r' m q) :
    SeatMove P c given r r' := .placed m q h.1 h.2.1 h.2.2

theorem putMembership_placed {row : MembershipRow} (hs : row.scope = c.self.scope)
    (left : row.leftUtc.isSome = true ↔ row.status = .left)
    (drawn : row.roomSessionId = c.uuid.text ∨
      ∃ e ∈ r.memberships, e.roomSessionId = row.roomSessionId)
    (h : putMembership P c row role now r = .ok (r', m, q)) :
    Placed P c role.isSome r m q ∧ SeatRows r r' m q := by
  simp only [putMembership, bind_eq_ok, pure_eq_ok, Prod.mk.injEq] at h
  obtain ⟨⟨r₁, q₁⟩, h₁, rfl, rfl, rfl⟩ := h
  have hc := upsertRoomRole_cast h₁
  have hr := hc.rooms_eq
  refine ⟨⟨?_, hc.session_eq, .inl ⟨rfl, left⟩, hc.role_sealed, drawn, fun hg => ?_⟩, ?_, ?_⟩
  · rw [hc.key_eq, ← hs]
    rfl
  · exact hc.kept (by cases role with | none => rfl | some x => cases hg)
  · exact hr ▸ rfl
  · exact hr ▸ rfl

/-- A seat keeps its session exactly while it stays active on its route profile. -/
structure Renewed (c : Ctx) (r : Rooms) (m : MembershipRow) : Prop where
  active : m.status = .active
  reused : ∀ e, lookup MembershipRow.key m.key r.memberships = some e → e.status = .active →
    e.routeProfileId = m.routeProfileId → m.roomSessionId = e.roomSessionId
  rotated : (∀ e, lookup MembershipRow.key m.key r.memberships = some e →
    ¬(e.status = .active ∧ e.routeProfileId = m.routeProfileId)) → m.roomSessionId = c.uuid.text

theorem upsertRoomMembership_placed {route : Option String}
    (h : upsertRoomMembership P c roomId agentId route role now r = .ok (r', m, q)) :
    (Placed P c role.isSome r m q ∧ SeatRows r r' m q) ∧ Renewed c r m := by
  unfold upsertRoomMembership at h
  obtain ⟨hm, -⟩ := putMembership_ok h
  cases hl : r.membership? c.self.scope roomId agentId with
  | none =>
    rw [hl] at h hm
    refine ⟨putMembership_placed rfl (by simp) (.inl rfl) h, ?_⟩
    subst hm
    refine ⟨rfl, fun e he => ?_, fun _ => rfl⟩
    cases hl.symm.trans he
  | some e =>
    rw [hl] at h hm
    by_cases he : e.status = .active ∧ e.routeProfileId = route
    · rw [Option.filter_some, if_pos (by simpa using he)] at h hm
      have hdrawn : ∃ x ∈ r.memberships, x.roomSessionId = e.roomSessionId :=
        ⟨e, lookup_mem hl, rfl⟩
      refine ⟨putMembership_placed ?_ ?_ (.inr ?_) h, ?_⟩
      · rfl
      · simp
      · exact hdrawn
      subst hm
      refine ⟨rfl, fun x hx _ _ => ?_, fun hn => absurd he (hn e hl)⟩
      rw [Option.some.inj (hx.symm.trans hl)]
      rfl
    · rw [Option.filter_some, if_neg (by simpa using he)] at h hm
      refine ⟨putMembership_placed rfl (by simp) (.inl rfl) h, ?_⟩
      subst hm
      refine ⟨rfl, fun x hx ha hroute => ?_, fun _ => rfl⟩
      obtain rfl := Option.some.inj (hx.symm.trans hl)
      exact absurd ⟨ha, hroute⟩ he

theorem assignSeatRole_placed {x : String × Option String}
    (h : assignSeatRole P c roomId agentId x now r = .ok (r', m, q)) :
    Placed P c true r m q ∧ SeatRows r r' m q := by
  unfold assignSeatRole at h
  split at h
  · simp only [bind_eq_ok] at h
    obtain ⟨-, -, h⟩ := h
    exact (upsertRoomMembership_placed h).1
  · rename_i e he
    simp only [bind_eq_ok, pure_eq_ok, Prod.mk.injEq] at h
    obtain ⟨-, -, ⟨r₁, q₁⟩, h₁, rfl, rfl, rfl⟩ := h
    have hc := upsertRoomRole_cast h₁
    have hkey : e.key = (c.self.scope, roomId, agentId) := lookup_key he
    have hmem := lookup_mem he
    refine ⟨⟨hc.key_eq.trans hkey.symm, hc.session_eq, .inr hmem, hc.role_sealed,
      .inr ⟨e, hmem, rfl⟩, fun hg => by cases hg⟩, ?_, ?_⟩
    · have hl : lookup MembershipRow.key e.key r.memberships = some e := hkey ▸ he
      rw [hc.rooms_eq, upsert_of_lookup hl]
    · rw [hc.rooms_eq]

theorem createRoom_move {a : CreateRoomArgs} {row : RoomRow}
    (h : createRoom P c a s = .ok (s', row)) : SeatMove P c false s.rooms s'.rooms := by
  simp only [createRoom, bind_eq_ok, pure_eq_ok, Prod.mk.injEq] at h
  obtain ⟨_, -, -, -, -, -, name, -, -, -, ⟨r₁, m, q⟩, h₁, -, -, ⟨s₁, chain⟩, he, rfl, -⟩ := h
  obtain ⟨log, rfl⟩ := Store.event_ok he
  obtain ⟨⟨hp, hs⟩, -⟩ := upsertRoomMembership_placed h₁
  exact .placed m q ⟨hp.key_eq, hp.session_eq, hp.member, hp.role, hp.drawn, hp.kept⟩ hs.1 hs.2

theorem joinRoom_placed {a : JoinRoomArgs} (h : joinRoom P c a s = .ok (s', m)) :
    ∃ role q, requestedRole P a = .ok role ∧
      (Placed P c role.isSome s.rooms m q ∧ SeatRows s.rooms s'.rooms m q) ∧
      Renewed c s.rooms m := by
  simp only [joinRoom, bind_eq_ok, pure_eq_ok, Prod.mk.injEq] at h
  obtain ⟨_, -, _, -, -, -, route, -, role, hrole, row, -, -, -, ⟨r₁, m₁, q⟩, h₁, ⟨s₁, chain⟩, he,
    rfl, rfl⟩ := h
  obtain ⟨log, rfl⟩ := Store.event_ok he
  exact ⟨role, q, hrole, upsertRoomMembership_placed h₁⟩

def JoinRoomArgs.givesRole (a : JoinRoomArgs) : Bool := a.roleId.isSome || a.roleLabel.isSome

theorem requestedRole_isSome {a : JoinRoomArgs} (h : requestedRole P a = .ok role) :
    role.isSome = a.givesRole := by
  unfold requestedRole at h
  split at h
  · rename_i hg
    cases hn : normalizeRoomRole P (a.roleId.getD "") (a.roleLabel.getD "") with
    | error e => simp [hn, Functor.map, Except.map] at h
    | ok x =>
      obtain rfl : some x = role := by simpa [hn, Functor.map, Except.map] using h
      exact hg.symm
  · rename_i hg
    obtain rfl : none = role := by simpa using h
    exact (Bool.not_eq_true _ ▸ hg : a.givesRole = false).symm

theorem leaveRoom_move {a : LeaveRoomArgs} (h : leaveRoom P c a s = .ok (s', m)) :
    SeatMove P c false s.rooms s'.rooms := by
  simp only [leaveRoom, bind_eq_ok, pure_eq_ok, Prod.mk.injEq] at h
  obtain ⟨roomId, -, agentId, -, row, -, -, -, -, -, -, -, ⟨r₁, m₁, q⟩, h₁, ⟨s₁, chain⟩, he,
    rfl, rfl⟩ := h
  obtain ⟨log, rfl⟩ := Store.event_ok he
  refine Placed.move (putMembership_placed rfl (by simp) ?_ h₁)
  cases hl : s.rooms.membership? c.self.scope roomId agentId with
  | none => exact .inl rfl
  | some e => exact .inr ⟨e, lookup_mem hl, rfl⟩

theorem setRoomMemberRole_move {a : SetMemberRoleArgs}
    (h : setRoomMemberRole P c a s = .ok (s', q)) : SeatMove P c true s.rooms s'.rooms := by
  simp only [setRoomMemberRole, bind_eq_ok, pure_eq_ok, Prod.mk.injEq] at h
  obtain ⟨roomId, -, agentId, -, x, -, -, -, ⟨r₁, m, q₁⟩, h₁, ⟨s₁, chain⟩, he, rfl, rfl⟩ := h
  obtain ⟨log, rfl⟩ := Store.event_ok he
  exact Placed.move (assignSeatRole_placed h₁)

end Steps

inductive SeatCall where
  | mail (call : Call)
  | setRoomMemberRole (a : SetMemberRoleArgs)

def SeatCall.givesRole : SeatCall → Bool
  | .mail (.joinRoom a) => a.givesRole
  | .mail _ => false
  | .setRoomMemberRole _ => true

def performSeat (P : Platform) (c : Ctx) (s : Store) : SeatCall → Except BridgeError Store
  | .mail call => Prod.fst <$> perform P c s call
  | .setRoomMemberRole a => Prod.fst <$> setRoomMemberRole P c a s

-- every call draws its own uuid, also one that fails
structure Seating where
  store : Store
  uuids : List String

def attemptSeat (P : Platform) (x : Seating) (i : SeatCall × Ctx) :
    Seating × Except BridgeError Unit :=
  let uuids := x.uuids ++ [i.2.uuid.text]
  match performSeat P i.2 x.store i.1 with
  | .ok s => ({ store := s, uuids }, .ok ())
  | .error e => ({ x with uuids }, .error e)

def seating (P : Platform) : Machine Seating (SeatCall × Ctx) (Except BridgeError Unit) where
  start x := ∃ connections, x = { store := .initial connections, uuids := [] }
  admits x i := i.2.uuid.text ∉ x.uuids
  exec := attemptSeat P

instance (P : Platform) (x : Seating) (i : SeatCall × Ctx) : Decidable ((seating P).admits x i) :=
  inferInstanceAs (Decidable (_ ∉ _))

section Runs
variable {P : Platform} {c : Ctx} {s s' : Store} {x y : Seating} {i : SeatCall × Ctx}

theorem map_fst_ok {α β : Type} {e : Except BridgeError (α × β)} {a : α}
    (h : Prod.fst <$> e = .ok a) : ∃ b, e = .ok (a, b) := by
  cases e with
  | error e => simp [Functor.map, Except.map] at h
  | ok z =>
    obtain rfl : z.1 = a := by simpa [Functor.map, Except.map] using h
    exact ⟨z.2, rfl⟩

theorem perform_move {call : Call} {reply : Reply} (h : perform P c s call = .ok (s', reply)) :
    SeatMove P c (SeatCall.mail call).givesRole s.rooms s'.rooms := by
  cases hc : call.furnishes with
  | false =>
    have he := perform_rooms_eq hc h
    exact .same (by rw [he]) (by rw [he])
  | true => ?_
  cases call <;> first
    | exact absurd hc Bool.false_ne_true
    | simp only [perform] at h
  case openScope =>
    simp only [pure_eq_ok, Prod.mk.injEq] at h
    obtain ⟨rfl, -⟩ := h
    exact .filled rfl rfl
  case createRoom a =>
    obtain ⟨row, hx, -⟩ := replyWith_ok h
    exact createRoom_move hx
  case joinRoom a =>
    obtain ⟨m, hx, -⟩ := replyWith_ok h
    obtain ⟨role, q, hrole, hp, -⟩ := joinRoom_placed hx
    have hmove := Placed.move hp
    rwa [requestedRole_isSome hrole] at hmove
  case leaveRoom a =>
    obtain ⟨m, hx, -⟩ := replyWith_ok h
    exact leaveRoom_move hx
  case setRoomAutomation a =>
    obtain ⟨policy, hx, -⟩ := replyWith_ok h
    obtain ⟨_, _, _, _, _, _, _, hm, _⟩ := setRoomAutomation_ok hx
    exact .same (by rw [hm]) (by rw [hm])
  case upsertRouteProfile a =>
    obtain ⟨row, hx, -⟩ := replyWith_ok h
    rcases (upsertRouteProfile_ok hx).2.2 with hm | ⟨-, -, -, -, -, -, hm⟩
    · exact .same (by rw [hm]) (by rw [hm])
    · exact .same (by rw [hm]) (by rw [hm])

theorem performSeat_move {call : SeatCall} (h : performSeat P c s call = .ok s') :
    SeatMove P c call.givesRole s.rooms s'.rooms := by
  cases call with
  | mail call =>
    obtain ⟨reply, hp⟩ := map_fst_ok h
    exact perform_move hp
  | setRoomMemberRole a =>
    obtain ⟨q, hp⟩ := map_fst_ok h
    exact setRoomMemberRole_move hp

theorem exec_move (i : SeatCall × Ctx) :
    SeatMove P i.2 i.1.givesRole x.store.rooms ((seating P).exec x i).1.store.rooms ∧
      ((seating P).exec x i).1.uuids = x.uuids ++ [i.2.uuid.text] := by
  simp only [seating, attemptSeat]
  split
  · rename_i s' hp
    exact ⟨performSeat_move hp, rfl⟩
  · exact ⟨.same rfl rfl, rfl⟩

-- no session was ever taken but from a drawn uuid
def Seating.Drawn (x : Seating) : Prop :=
  ∀ m ∈ x.store.rooms.memberships, m.roomSessionId ∈ x.uuids

theorem exec_drawn (h : x.Drawn) : ((seating P).exec x i).1.Drawn := by
  intro m hm
  obtain ⟨hmove, huuids⟩ := exec_move (P := P) (x := x) i
  rw [huuids]
  rcases hmove.drawn hm with he | ⟨e, hmem, he⟩
  · exact he ▸ List.mem_append_right _ List.mem_cons_self
  · exact List.mem_append_left _ (he ▸ h e hmem)

structure Seating.Valid (P : Platform) (x : Seating) : Prop where
  inStep : x.store.rooms.InStep P
  drawn : x.Drawn

theorem reachable_valid (h : (seating P).Reachable x) : x.Valid P := by
  refine h.invariant (Seating.Valid P) ?_ fun x i hv _ =>
    ⟨(exec_move i).1.inStep hv.inStep, exec_drawn hv.drawn⟩
  rintro _ ⟨connections, rfl⟩
  exact ⟨⟨.nil, fun m hm => (by cases hm), fun q hq => (by cases hq)⟩, fun m hm => (by cases hm)⟩

theorem run_uuids {tr : List ((SeatCall × Ctx) × Except BridgeError Unit)}
    (h : (seating P).Run y tr x) {t : String} (ht : t ∈ y.uuids) : t ∈ x.uuids := by
  refine h.preserves (fun x => t ∈ x.uuids) (fun x i hx _ => ?_) ht
  rw [(exec_move i).2]
  exact List.mem_append_left _ hx

theorem seats_one_to_one (h : (seating P).Reachable x) :
    ((∀ m ∈ x.store.rooms.memberships, ∃! q, q ∈ x.store.rooms.roles ∧ q.key = m.key) ∧
      (∀ q ∈ x.store.rooms.roles, ∃! m, m ∈ x.store.rooms.memberships ∧ m.key = q.key) ∧
      (x.store.rooms.memberships.map MembershipRow.key).Nodup ∧
      (x.store.rooms.roles.map RoleRow.key).Nodup ∧
      (∀ m ∈ x.store.rooms.memberships, ∀ q ∈ x.store.rooms.roles, q.key = m.key →
        q.roomSessionId = m.roomSessionId) ∧
      (∀ m ∈ x.store.rooms.memberships,
        m.membershipSha256 = P.stableSha256 (membershipPayload m) ∧
          (m.leftUtc.isSome = true ↔ m.status = .left)) ∧
      ∀ q ∈ x.store.rooms.roles, q.roleSha256 = P.stableSha256 (rolePayload q)) ∧
    (∀ i, (seating P).admits x i → ∀ a s' m, i.1 = .mail (.joinRoom a) →
      joinRoom P i.2 a x.store = .ok (s', m) →
        ((seating P).exec x i).1.store = s' ∧ m ∈ s'.rooms.memberships ∧
        (∀ e ∈ x.store.rooms.memberships, e.key = m.key → e.status = .active →
          e.routeProfileId = m.routeProfileId → m.roomSessionId = e.roomSessionId) ∧
        ((∀ e ∈ x.store.rooms.memberships, e.key = m.key →
            e.status = .left ∨ e.routeProfileId ≠ m.routeProfileId) →
          ∀ y tr, (seating P).Reachable y → (seating P).Run y tr x →
            ∀ e ∈ y.store.rooms.memberships, e.roomSessionId ≠ m.roomSessionId)) ∧
    ∀ i, (seating P).admits x i → i.1.givesRole = false → ∀ q ∈ x.store.rooms.roles,
      ∃ q' ∈ ((seating P).exec x i).1.store.rooms.roles,
        q'.key = q.key ∧ q'.roleId = q.roleId ∧ q'.roleLabel = q.roleLabel := by
  have hv := reachable_valid h
  have hp := hv.inStep.paired
  refine ⟨⟨fun m hm => hp.unique_right hm, fun q hq => hp.unique_left hq, hp.left_keys,
    hp.right_keys, fun m hm q hq hk => hp.link_of_key hm hq hk,
    fun m hm => ⟨(hv.inStep.members m hm).sha_eq, (hv.inStep.members m hm).left_iff⟩,
    hv.inStep.roles⟩, ?_, ?_⟩
  · rintro ⟨_, c⟩ hfresh a s' m rfl hj
    obtain ⟨role, q, -, ⟨-, hs⟩, hrenewed⟩ := joinRoom_placed hj
    refine ⟨?_, ?_, fun e he hk ha hr => ?_, fun hother y tr hy hrun e he heq => ?_⟩
    · simp [seating, attemptSeat, performSeat, perform, replyWith, hj, bind, Except.bind, pure,
        Except.pure, Functor.map, Except.map]
    · exact hs.1 ▸ mem_upsert_self
    · exact hrenewed.reused e (hk ▸ lookup_of_mem hp.left_keys he) ha hr
    · have hnew : m.roomSessionId = c.uuid.text := by
        refine hrenewed.rotated fun e he hkept => ?_
        obtain ⟨ha, hr⟩ := hkept
        rcases hother e (lookup_mem he) (lookup_key he) with hl | hne
        · rw [ha] at hl
          cases hl
        · exact hne hr
      have hold : e.roomSessionId ∈ x.uuids := run_uuids hrun ((reachable_valid hy).drawn e he)
      exact hfresh (hnew ▸ heq ▸ hold)
  · intro i _ hg q hq
    exact (hg ▸ (exec_move i).1).role_kept hv.inStep hq

end Runs

-- the seat of a is left and taken again, then b is made the reviewer
def seatRun : List (SeatCall × Ctx) :=
  (asHuman 1 (sampleSeats ["a", "b"] ++ [.leaveRoom { roomId := "r", agentId := some "a" },
    .joinRoom { roomId := "r", agentId := some "a" }])).map (fun x => (.mail x.1, x.2)) ++
  [(.setRoomMemberRole { roomId := "r", agentId := "b", roleId := "reviewer" },
    sampleCtx sampleHuman 20)]

set_option maxRecDepth 100000 in
theorem seats_one_to_one_rejoined :
    let M := seating samplePlatform
    let x := (M.play { store := .initial [], uuids := [] } seatRun).1
    x.store.rooms.memberships.map (fun m => (m.agentId, m.roomSessionId)) =
        [("human-operator", (Uuid.ofNat 1002).text), ("a", (Uuid.ofNat 1008).text),
          ("b", (Uuid.ofNat 1006).text)] ∧
      x.store.rooms.roles.map RoleRow.roleId =
        ["equal-participant", "equal-participant", "reviewer"] ∧
      (∀ m ∈ x.store.rooms.memberships, ∃! q, q ∈ x.store.rooms.roles ∧ q.key = m.key) ∧
      ∀ m ∈ x.store.rooms.memberships, ∀ q ∈ x.store.rooms.roles, q.key = m.key →
        q.roomSessionId = m.roomSessionId := by
  intro M x
  have hcheck : M.AdmitsAll { store := .initial [], uuids := [] } seatRun ∧
      x.store.rooms.memberships.map (fun m => (m.agentId, m.roomSessionId)) =
        [("human-operator", (Uuid.ofNat 1002).text), ("a", (Uuid.ofNat 1008).text),
          ("b", (Uuid.ofNat 1006).text)] ∧
      x.store.rooms.roles.map RoleRow.roleId =
        ["equal-participant", "equal-participant", "reviewer"] := by
    decide +kernel
  have hreach : M.Reachable x := ⟨_, _, ⟨[], rfl⟩, Machine.run_play _ _ hcheck.1⟩
  obtain ⟨hpairs, -, -⟩ := seats_one_to_one hreach
  exact ⟨hcheck.2.1, hcheck.2.2, hpairs.1, hpairs.2.2.2.2.1⟩

end PeerBridge
