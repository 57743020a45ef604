import PeerBridge.Messages
import PeerBridge.Canonical
import PeerBridge.Lib.Pairing

namespace PeerBridge
open Checked Rows

def columnBytes (t : String) : Nat := utf8Length t.toList

-- json.dumps with its default separators
def spaced : List (List Char) → List Char
  | [] => []
  | [x] => x
  | x :: y :: xs => x ++ ',' :: ' ' :: spaced (y :: xs)

def artifactPathsJson (paths : List String) : String :=
  String.ofList ('[' :: (spaced (paths.map (fun p => JsonText.quote p.toList)) ++ [']']))

def MessageRow.columnBytes (m : MessageRow) : Nat :=
  PeerBridge.columnBytes m.body + PeerBridge.columnBytes m.subject +
  PeerBridge.columnBytes (artifactPathsJson m.artifactPaths) +
  PeerBridge.columnBytes ((m.routeRequestSha256.map Sha256.hex).getD "") +
  PeerBridge.columnBytes (m.replyTo.getD "")

def Mail.ofScope (m : Mail) (scope : String) : List MessageRow :=
  m.messages.filter (fun x => x.scope = scope)

def Audit.ofScope (a : Audit) (scope : String) : List EventRow :=
  a.events.filter (fun e => e.scope = scope)

def ensureUsage (now : Utc) : List String → List StorageUsageRow → List StorageUsageRow
  | [], rows => rows
  | scope :: scopes, rows =>
    ensureUsage now scopes
      (if (lookup StorageUsageRow.scope scope rows).isSome then rows
       else rows ++ [{ scope, messageRows := 0, messageBytes := 0, eventRows := 0, eventBytes := 0,
                       updatedUtc := now }])

def recountMessages (now : Utc) (m : Mail) (row : StorageUsageRow) : StorageUsageRow :=
  { row with messageRows := (m.ofScope row.scope).length,
             messageBytes := ((m.ofScope row.scope).map MessageRow.columnBytes).sum,
             updatedUtc := now }

def recountEvents (P : Platform) (now : Utc) (a : Audit) (row : StorageUsageRow) :
    StorageUsageRow :=
  { row with eventRows := (a.ofScope row.scope).length,
             eventBytes := ((a.ofScope row.scope).map (fun e => P.encodedBytes e.payload)).sum,
             updatedUtc := now }

def recountUsage (P : Platform) (now : Utc) (s : Store) : List StorageUsageRow :=
  let counted := (ensureUsage now (s.mail.messages.map MessageRow.scope)
    s.audit.storageUsage).map (recountMessages now s.mail)
  (ensureUsage now (s.audit.events.map EventRow.scope) counted).map
    (recountEvents P now s.audit)

def backfilledRole (P : Platform) (m : MembershipRow) (existing : Option RoleRow) : RoleRow :=
  let row : RoleRow :=
    { scope := m.scope, roomId := m.roomId, agentId := m.agentId, roomSessionId := m.roomSessionId,
      roleId := (existing.map RoleRow.roleId).getD defaultRoomRole,
      roleLabel := existing.bind RoleRow.roleLabel,
      updatedBy := (existing.map RoleRow.updatedBy).getD "peerbridge-schema-migration",
      createdUtc := (existing.map RoleRow.createdUtc).getD m.joinedUtc,
      updatedUtc := m.updatedUtc, roleSha256 := zeroSha256 }
  { row with roleSha256 := P.stableSha256 (rolePayload row) }

def Rooms.backfill (P : Platform) (r : Rooms) : Rooms :=
  { r with roles := fill MembershipRow.key RoleRow.key (backfilledRole P) r.memberships r.roles }

def initDb (P : Platform) (c : Ctx) (s : Store) : Store :=
  let s := ensureLobby P c (s.withRooms (s.rooms.backfill P))
  s.withAudit { s.audit with storageUsage := recountUsage P (utcNow c.clock.locked) s }

@[simp] theorem initDb_mail (P : Platform) (c : Ctx) (s : Store) :
    (initDb P c s).mail = s.mail := rfl

@[simp] theorem initDb_rooms (P : Platform) (c : Ctx) (s : Store) :
    (initDb P c s).rooms = (ensureLobby P c (s.withRooms (s.rooms.backfill P))).rooms := rfl

@[simp] theorem initDb_ledger (P : Platform) (c : Ctx) (s : Store) :
    (initDb P c s).ledger = s.ledger := rfl

end PeerBridge
