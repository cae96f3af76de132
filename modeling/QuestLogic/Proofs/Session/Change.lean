import QuestLogic.Proofs.Party.Change
import QuestLogic.Proofs.Save.Change

/-!
# What play does to a session

Every operation on a session is made of a few changes, and `Session.Deed` names them.
`Session.Leads` is what the changes that a class of deeds allows can make of a session, and
`Session.rule` says of a step that it makes no others and that a fault of the save image only meets
it where the image ends before the flags do. An invariant of play is proved once for each change
(`Session.Leads.keeps`).
-/

namespace QuestLogic.Session

open Relation (ReflTransGen)

/-- A change of a session. -/
inductive Deed where
  | image (d : Image.Deed)
  | load (m : Image)
  | unload
  | party
  /-- The world outside the dialogs replaces the party. -/
  | regroup
  /-- Chapter and zone. -/
  | place
  | clock
  /-- A timed effect begins. -/
  | begin (kind : EffectKind) (subject : UInt16) (flags : UInt8) (duration : Time)
  | cast (spell : StaticSpell) (duration : Time)
  | kindle (light : UInt16) (duration : Time)
  /-- A timed effect loses time. -/
  | visit (span : Time)
  /-- What has run out is dropped. -/
  | sweep
  /-- Every light in the ledger is dropped. -/
  | douse
  /-- How bright the light of the party is. -/
  | glow
  | role
  /-- What dialogs note of the rest. -/
  | note

/-- The sessions differ at most in what dialogs note. -/
structure SameGame (s t : Session) : Prop where
  settings : t.settings = s.settings
  save : t.save = s.save
  party : t.party = s.party
  chapter : t.chapter = s.chapter
  zone : t.zone = s.zone
  clock : t.clock = s.clock
  ledger : t.ledger = s.ledger
  spells : t.spells = s.spells
  light : t.light = s.light
  roles : t.roles = s.roles

/-- What an effect with so much time left makes of the spells that are in effect. -/
def refresh (a : ActiveSpells) (e : Effect) : ActiveSpells :=
  if e.kind = .spell then a.set e.subject (!e.duration.isZero) else a

/-- What a deed makes of a session. -/
inductive Change : Deed → Session → Session → Prop
  | image {s : Session} {d : Image.Deed} {m m' : Image} (hs : s.save = some m)
    (h : m.Change d m') : Change (.image d) s { s with save := some m' }
  | load {s t : Session} {m : Image} (h : s.loaded m = .ok t) : Change (.load m) s t
  | unload (s : Session) : Change .unload s { s with save := none }
  | party {s : Session} {p : Party} (h : s.party.Change p) : Change .party s { s with party := p }
  | regroup (s : Session) (p : Party) : Change .regroup s { s with party := p }
  | place (s : Session) (c : Chapter) (z : Zone) :
    Change .place s { s with chapter := c, zone := z }
  | clock (s : Session) (c : Clock) : Change .clock s { s with clock := c }
  | begin {s : Session} {kind : EffectKind} {subject : UInt16} {flags : UInt8} {duration : Time}
    {l : Ledger} (h : s.ledger.add? kind subject flags duration = some l) :
    Change (.begin kind subject flags duration) s { s with ledger := l }
  | cast {s : Session} {spell : StaticSpell} {duration : Time} {l : Ledger}
    (h : s.ledger.addSpell? spell.code duration = some l) : Change (.cast spell duration) s
      { s with ledger := l, spells := s.spells.set spell.code true }
  | kindle {s : Session} {light : UInt16} {duration : Time} {l : Ledger}
    (h : s.ledger.addLight? light duration = some l) (level : UInt8) :
    Change (.kindle light duration) s { s with ledger := l, light := level }
  | visit {s : Session} {i : Nat} {e : Effect} (h : s.ledger.entries[i]? = some e) (span : Time) :
    Change (.visit span) s
      { s with
        ledger.entries := s.ledger.entries.set i (e.decay span),
        spells := refresh s.spells (e.decay span) }
  | sweep (s : Session) : Change .sweep s { s with ledger := s.ledger.removeExpired }
  | douse (s : Session) : Change .douse s { s with ledger := s.ledger.removeKind .light }
  | glow (s : Session) (level : UInt8) : Change .glow s { s with light := level }
  | role {s : Session} {id : CharId} {c : Character} (h : s.party.member? id = some c)
    (slot : UInt8) : Change .role s { s with roles := s.roles.setIfInBounds slot.toNat id.val }
  | noRoles (s : Session) : Change .role s { s with roles := .replicate 6 noRole }
  | note {s t : Session} (h : SameGame s t) : Change .note s t

/-- One session comes from another by the changes that `K` allows. -/
def Leads (K : Deed → Prop) : Session → Session → Prop :=
  ReflTransGen fun s t => ∃ d, K d ∧ Change d s t

variable {K : Deed → Prop} {s t u : Session} {d : Deed}

theorem Leads.refl (s : Session) : Leads K s s := ReflTransGen.refl

theorem Leads.trans (h : Leads K s t) (h' : Leads K t u) : Leads K s u := ReflTransGen.trans h h'

theorem Change.leads (h : Change d s t) (hK : K d) : Leads K s t := ReflTransGen.single ⟨d, hK, h⟩

/-- What every allowed change keeps is kept. -/
theorem Leads.keeps {P : Session → Prop}
    (hP : ∀ {d s t}, K d → Change d s t → P s → P t) (h : Leads K s t) (hs : P s) : P t := by
  induction h with
  | refl => exact hs
  | tail _ h ih =>
    obtain ⟨d, hK, hchange⟩ := h
    exact hP hK hchange ih

/-- The change leaves the image where it is, and writes to it only what `Q` allows. -/
def Deed.OnImage (Q : Image.Deed → Prop) : Deed → Prop
  | .image w => Q w
  | .load _ | .unload => False
  | _ => True

/-- What the writes that `Q` allows keep of an image, a change that makes no others keeps of the
image of a session. -/
theorem Change.keeps_save {d : Deed} {Q : Image.Deed → Prop} {P : Image → Prop} (h : Change d s t)
    (hP : ∀ {w m m'}, Q w → Image.Change w m m' → P m → P m') (hd : d.OnImage Q)
    (hs : ∃ m, s.save = some m ∧ P m) : ∃ m, t.save = some m ∧ P m := by
  obtain ⟨m, hm, hkept⟩ := hs
  cases h with
  | image hsave hchange =>
    rw [hm, Option.some.injEq] at hsave
    subst hsave
    exact ⟨_, rfl, hP hd hchange hkept⟩
  | load | unload => exact hd.elim
  | note h => exact ⟨m, h.save.trans hm, hkept⟩
  | _ => exact ⟨m, hm, hkept⟩

/-- The session has an image that ends before the flags do. -/
def IsCutShort (s : Session) : Prop := ∃ m, s.save = some m ∧ m.size < Layout.size

/-- The change leaves an image as long as it was. -/
def Deed.KeepsLength : Deed → Prop
  | .load _ => False
  | _ => True

/-- An image is cut short only by loading another. -/
theorem Change.not_isCutShort {d : Deed} (h : Change d s t) (hd : d.KeepsLength)
    (hs : ¬s.IsCutShort) : ¬t.IsCutShort := by
  cases h with
  | load => exact hd.elim
  | image hsave hchange =>
    rintro ⟨m, hm, hsize⟩
    cases hm
    rw [hchange.size_eq] at hsize
    exact hs ⟨_, hsave, hsize⟩
  | unload =>
    rintro ⟨m, hm, -⟩
    cases hm
  | note h =>
    rintro ⟨m, hm, hsize⟩
    exact hs ⟨m, h.save ▸ hm, hsize⟩
  | _ => exact hs

/-- Only the changes that `K` allows are made, and an image that reaches to the end of the flags is
never to blame for a fault. -/
def rule (K : Deed → Prop) : Rule Session where
  leads := Leads K
  permits e s := e.isCorruption = true → s.IsCutShort
  refl := .refl
  trans := .trans

/-! ## Parts of a session -/

@[simp] theorem run_onSave_some {m : Image} (hs : s.save = some m) (x : Step Image Unit) :
    (onSave x).run s = ((x.run m).1, { s with save := some (x.run m).2 }) := by
  rw [Step.run, onSave, hs]
  rfl

@[simp] theorem run_onSave_none (hs : s.save = none) (x : Step Image Unit) :
    (onSave x).run s = (.ok (), s) := by
  rw [Step.run, onSave, hs]

/-- What is written to an image is written to the image of a session. -/
theorem leads_image {m m' : Image} (hs : s.save = some m)
    (h : Image.Leads (fun d => K (.image d)) m m') : Leads K s { s with save := some m' } := by
  induction h with
  | refl =>
    rw [show { s with save := some m } = s by rw [← hs]]
    exact .refl s
  | tail _ h ih =>
    obtain ⟨d, hK, hchange⟩ := h
    exact ih.trans ((Change.image rfl hchange).leads hK)

/-- A step on the image is within the rule if it is within that for images. -/
theorem holds_onSave {x : Step Image Unit}
    (hx : ∀ m, s.save = some m → (Image.rule fun d => K (.image d)).Holds x m) :
    (rule K).Holds (onSave x) s := by
  rcases hs : s.save with _ | m
  · rw [Rule.Holds, run_onSave_none hs]
    exact ⟨.refl s, by simp⟩
  · obtain ⟨hlead, hfault⟩ := hx m hs
    rw [Rule.Holds, run_onSave_some hs]
    exact ⟨leads_image hs hlead, fun e he hcorrupt => ⟨_, rfl, hfault e he hcorrupt⟩⟩

theorem obeys_onSave {x : Step Image Unit} (hx : (Image.rule fun d => K (.image d)).Obeys x) :
    (rule K).Obeys (onSave x) :=
  fun _ => holds_onSave fun m _ => hx m

/-- A step on the image is within every rule that lets the image be exchanged and permits any
fault. -/
theorem obeys_onSave_of_image {ρ : Rule Session} {x : Step Image Unit}
    (hlead : ∀ s m, ρ.leads s { s with save := some m }) (hpermit : ∀ e s, ρ.permits e s) :
    ρ.Obeys (onSave x) := by
  intro s
  rcases hs : s.save with _ | m
  · rw [Rule.Holds, run_onSave_none hs]
    exact ⟨ρ.refl s, fun e _ => hpermit e s⟩
  · rw [Rule.Holds, run_onSave_some hs]
    exact ⟨hlead s _, fun e _ => hpermit e _⟩

/-- What play does to a party it does to the party of a session. -/
theorem leads_party (hK : K .party) {p : Party} (h : s.party.Leads p) :
    Leads K s { s with party := p } := by
  induction h with
  | refl => exact .refl s
  | tail _ h ih => exact ih.trans ((Change.party h).leads hK)

theorem obeys_onParty {α : Type} (hK : K .party) {x : Step Party α} (hx : Party.rule.Obeys x) :
    (rule K).Obeys (onParty x) :=
  Rule.obeys_zoom (fun _ _ h => leads_party hK h)
    (fun _ e _ h hcorrupt => by rw [show e.isCorruption = false from h] at hcorrupt; cases hcorrupt)
    hx

theorem leads_mapActive (hK : K .party) (s : Session) {f : Character → Character}
    (h : ∀ c, Character.Leads c (f c)) : Leads K s (s.mapActive f) :=
  leads_party hK (Party.leads_mapActive s.party h)

theorem obeys_mapActive (hK : K .party) {f : Character → Character}
    (h : ∀ c, Character.Leads c (f c)) : (rule K).Obeys (modify (·.mapActive f)) :=
  Rule.obeys_modify fun s => leads_mapActive hK s h

/-- What dialogs note. -/
theorem obeys_note {f : Session → Session} (hK : K .note) (h : ∀ s, SameGame s (f s)) :
    (rule K).Obeys (modify f) :=
  Rule.obeys_modify fun s => (Change.note (h s)).leads hK

/-- A look at the session is within the rule if it meets no fault of the image. -/
theorem obeys_view {α : Type} {f : Session → Except Fault α}
    (h : ∀ s e, f s = .error e → e.isCorruption = false) : (rule K).Obeys (.view f) :=
  Rule.obeys_view fun s e he hcorrupt => by
    rw [h s e he] at hcorrupt
    cases hcorrupt

/-- An update is within the rule if its successes lead on and it meets no fault of the image. -/
theorem obeys_update {f : Session → Except Fault Session}
    (hok : ∀ s t, f s = .ok t → Leads K s t)
    (herr : ∀ s e, f s = .error e → e.isCorruption = false) : (rule K).Obeys (.update f) :=
  Rule.obeys_update hok fun s e he hcorrupt => by
    rw [herr s e he] at hcorrupt
    cases hcorrupt

theorem obeys_roll (hK : K .note) (lo hi : UInt32) : (rule K).Obeys (roll lo hi) := by
  refine Rule.obeys_get_bind fun s => ?_
  exact (obeys_note hK fun t => by constructor <;> rfl).bind fun _ => Rule.obeys_pure _

end QuestLogic.Session
