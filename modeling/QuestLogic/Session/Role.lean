import QuestLogic.Session.Basic

/-!
# Roles

A dialog speaks of characters by role. Six roles can be given to members of the roster: by name, by
place in the party, or by lot among those who fit. A role also fills the text slot of its number.
-/

namespace QuestLogic.Session

/-- The character in a role. -/
def role (s : Session) (slot : UInt8) : Except Fault CharId :=
  match s.roles[slot.toNat]? with
  | none => .error (.noSuchRole slot)
  | some c => if c = noRole then .error (.roleUnset slot) else .ok ⟨c⟩

/-- The leader of the party. -/
def leader (s : Session) : CharId := s.party.leader s.chapter

/-- The character who speaks, or else the first in the party. -/
def speakerOrFirst (s : Session) : Except Fault CharId :=
  match s.speaker.or s.party.active.head? with
  | some c => .ok c
  | none => .error .noSpeaker

/--
Who speaks for an actor: `0xff` is the speaker, `0xfe` the leader, `0xfd` role 5 and `0xf0 + n` role
`n`, each reported as one more than the character's number. Nobody speaks for `0xc8`, and any other
actor for itself.
-/
def actor (s : Session) (id : UInt8) : Except Fault (Option UInt8) :=
  let report (c : CharId) : Option UInt8 := some (c.val + 1)
  if id = 0xff then report <$> s.speakerOrFirst
  else if id = 0xfe then .ok (report s.leader)
  else if id = 0xfd then report <$> s.role 5
  else if 0xf0 ≤ id then report <$> s.role (id - 0xf0)
  else if id = 0xc8 then .ok none
  else .ok (some id)

/-- Gives a role to a member of the roster, whose name goes to the text slot of that number. -/
def assignRole (slot : UInt8) (id : CharId) : Step Session Unit := .update fun s => do
  let c ← s.party.member id
  return { s with
    roles := s.roles.setIfInBounds slot.toNat id.val, texts := s.texts.set slot.toNat c.name }

/-- Whether a role of a kind that is given by lot can fall to a character. -/
def fits (s : Session) (kind : UInt8) (id : CharId) : Bool :=
  if kind = 0xe then id.isSpellCaster
  else if kind = 0xf then id.isSwordsman
  else if kind = 0x10 then id = .gorath || id = .patrus
  else id ≠ s.leader

/-- The active members who fit and have none of the roles before `slot`. -/
def candidates (s : Session) (slot kind : UInt8) : List CharId :=
  let earlier := s.roles.toList.take slot.toNat
  s.party.active.filter fun id => !earlier.contains id.val && s.fits kind id

/-- The highest roll for a role. -/
def roleRollLimit : UInt32 := 0x1f8

/-- Picks a character by lot; the leader stands in when nobody fits, and nothing is rolled. -/
def pickByLot (slot kind : UInt8) : Step Session CharId := do
  let s ← get
  match s.candidates slot kind with
  | [] => return s.leader
  | first :: rest =>
    let n ← roll 0 roleRollLimit
    return (first :: rest)[n.toNat % (rest.length + 1)]?.getD first

/--
Fills a role by kind: 1 to 6 name a character, 7 is the leader, `0xb` to `0xd` are the first
three members, and `0xe`, `0xf`, `0x10` and `0x1f` pick by lot among spell casters, swordsmen,
Gorath and Patrus, and everyone but the leader. Any other kind does nothing.
-/
def fillRole (slot kind : UInt8) : Step Session Unit := do
  let s ← get
  if 1 ≤ kind && kind ≤ 6 then assignRole slot ⟨kind - 1⟩
  else if kind = 7 then assignRole slot s.leader
  else if 0xb ≤ kind && kind ≤ 0xd then
    let place := (kind - 0xb).toNat
    match s.party.active[place]? with
    | some id => assignRole slot id
    | none => throw (.noActiveMember place)
  else if kind = 0xe || kind = 0xf || kind = 0x10 || kind = 0x1f then
    assignRole slot (← pickByLot slot kind)
  else pure ()

/-- Empties the roles and fills the usual ones: leader, swordsman, spell caster, and another. -/
def fillUsualRoles : Step Session Unit := do
  modify fun s => { s with roles := .replicate 6 noRole }
  fillRole 4 0x7
  fillRole 5 0xf
  fillRole 3 0xe
  fillRole 0 0x1f

/-- The name of the selected item. -/
def selectedItemName (s : Session) : Except Fault String :=
  match s.selectedItem with
  | some i => .ok i.id.name
  | none => .error .noItemSelected

end QuestLogic.Session
