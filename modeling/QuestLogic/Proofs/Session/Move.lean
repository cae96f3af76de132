import QuestLogic.Proofs.Session.Chapter
import QuestLogic.Proofs.Session.Save

/-!
# Sessions in play

`Session.Move` lists what the world may do with a session, and `Session.Runs` is any number of such
moves, whether they go through or meet a fault. A session is reachable if it is what moves make of
one that has just begun (`Session.Reachable`). A move makes no change but those that `Move.Does`
lists (`Session.leads_play`), so an invariant of the changes is one of every run
(`Session.Runs.keeps`).
-/

namespace QuestLogic.Session

/-- What the world may do with a session. -/
inductive Move where
  | perform (a : Action)
  | performAll (as : List Action)
  | chain (dialogs : DialogStore) (first : Target)
  | transition (c : Chapter) (story : Story) (dialogs : DialogStore)
  | elapse (span : Time)
  | passTime (span : Time) (how : Pastime)
  | reduceLedger (span : Time)
  | putOut
  | addLight (light : UInt16) (duration : Time)
  | castStatic (spell : StaticSpell) (duration : Time)
  | extinguish
  | noteDialog (e : Encounter)
  | noteScene (e : Encounter)
  | noteSwitch (e : Encounter)
  | noteCombat (combat : UInt16)
  | clearTile
  | setEvent (p : EventPtr) (on : Bool)
  | setMark (k : Mark) (on : Bool)
  | applyWrite (w : FlagWrite)
  | load (m : Image)
  | saveState
  | takeSave
  | setChapter (c : Chapter)
  | setZone (z : Zone)
  | setClock (c : Clock)
  | fillUsualRoles
  | setTextVariable (slot source : UInt8)
  | assignRole (slot : UInt8) (id : CharId)
  | setActiveCharacter (id : CharId)
  | clearDialog
  /-- The party is replaced from outside the dialogs. -/
  | regroup (p : Party)
  /-- Anything else that dialogs note: a roll, a price, the speaker, the snippets left to see. -/
  | note (f : Session → Session) (h : ∀ s, SameGame s (f s))

namespace Move

/-- What a move does to a session. -/
def play : Move → Step Session Unit
  | perform a => Session.perform a
  | performAll as => Session.performAll as
  | chain dialogs first => Session.chain dialogs first
  | transition c story dialogs => (fun _ => ()) <$> Session.transition c story dialogs
  | elapse span => Session.elapse span
  | passTime span how => Session.passTime span how
  | reduceLedger span => Session.reduceLedger span
  | putOut => modify (·.putOut.2)
  | addLight light duration => Session.addLight light duration
  | castStatic spell duration => Session.castStatic spell duration
  | extinguish => modify Session.extinguish
  | noteDialog e => Session.noteDialog e
  | noteScene e => Session.noteScene e
  | noteSwitch e => Session.noteSwitch e
  | noteCombat combat => Session.noteCombat combat
  | clearTile => Session.clearTile
  | setEvent p on => Session.setEvent p on
  | setMark k on => Session.setMark k on
  | applyWrite w => onSave (Image.applyWrite w)
  | load m => Session.load m
  | saveState => Session.saveState
  | takeSave => modify fun s => { s with save := none }
  | setChapter c => Session.setChapter c
  | setZone z => modify fun s => { s with zone := z }
  | setClock c => modify fun s => { s with clock := c }
  | fillUsualRoles => Session.fillUsualRoles
  | setTextVariable slot source => Session.setTextVariable slot source
  | assignRole slot id => Session.assignRole slot id
  | setActiveCharacter id => Session.setActiveCharacter id
  | clearDialog => modify Session.clearDialog
  | regroup p => modify fun s => { s with party := p }
  | note f _ => modify f

/-- The changes that a move may be made of. -/
def Does (v : Move) (d : Deed) : Prop :=
  match v with
  | perform a => a.Does d
  | performAll as => ∃ a ∈ as, a.Does d
  | chain dialogs _ => dialogs.Does d
  | transition _ _ dialogs => d.OfChapter ∨ dialogs.Does d
  | elapse _ | passTime _ _ | reduceLedger _ => d.OfPassage
  | putOut => d = .party ∨ d = .glow
  | addLight light duration => d = .kindle light duration
  | castStatic spell duration => d = .cast spell duration
  | extinguish => d = .party ∨ d = .douse ∨ d = .glow
  | noteDialog e | noteScene e | noteSwitch e => d.OfEncounter e
  | noteCombat combat =>
    ∃ q, CombatQuest.ofCombat? combat = some q ∧ d = .image (.flag q.won true)
  | clearTile => ∃ w : Image.Deed, d = .image w ∧
      w.Clears (FlagRange.recentEncounter.pointers ++ FlagRange.combatScouted.pointers)
  | setEvent p on => d = .image (.flag p on)
  | setMark k on => ∃ w : Image.Deed, d = .image w ∧ w.OfMark k on
  | applyWrite write => ∃ w : Image.Deed, d = .image w ∧ w.OfWrite write
  | load m => d = .load m
  | saveState => ∃ w : Image.Deed, d = .image w ∧ OfSave w
  | takeSave => d = .unload
  | setChapter _ => d = .place ∨ ∃ w : Image.Deed, d = .image w ∧ w.OfField Layout.chapter 2
  | setZone _ => d = .place
  | setClock _ => d = .clock
  | fillUsualRoles | setTextVariable _ _ | assignRole _ _ | clearDialog => d = .role ∨ d = .note
  | regroup _ => d = .regroup
  | setActiveCharacter _ | note _ _ => d = .note

end Move

variable {K : Deed → Prop} {s t u : Session}

/-- A move, other than to load an image, makes no change but those it may be made of. Saving needs
the ledger to fit into its field. -/
theorem holds_play {v : Move} (hK : ∀ d, v.Does d → K d)
    (hroom : s.ledger.entries.length ≤ Ledger.maxCapacity) (hload : ∀ m, v ≠ .load m) :
    (rule K).Holds v.play s := by
  cases v with
  | perform a => exact obeys_perform hK s
  | performAll as => exact obeys_performAll (fun a ha d hd => hK d ⟨a, ha, hd⟩) s
  | chain dialogs first => exact obeys_chain hK first s
  | transition c story dialogs =>
    have htransition := obeys_transition (fun d hd => hK d (.inr hd)) (fun d hd => hK d (.inl hd))
    exact (htransition c story).map _ s
  | elapse span => exact (allowsTime_of_passage hK).elapse span s
  | passTime span how => exact (allowsTime_of_passage hK).passTime span how s
  | reduceLedger span => exact obeys_reduceLedger hK span s
  | putOut => exact Rule.holds_modify (leads_putOut (hK _ (.inl rfl)) (hK _ (.inr rfl)) s)
  | addLight light duration => exact obeys_addLight (hK _ rfl) s
  | castStatic spell duration => exact obeys_castStatic (hK _ rfl) s
  | extinguish =>
    exact obeys_extinguish (hK _ (.inl rfl)) (hK _ (.inr (.inl rfl))) (hK _ (.inr (.inr rfl))) s
  | noteDialog e => exact obeys_noteDialog hK s
  | noteScene e => exact obeys_noteDone hK s
  | noteSwitch e => exact obeys_noteSwitch hK s
  | noteCombat combat => exact obeys_noteCombat (fun q hq => hK _ ⟨q, hq, rfl⟩) s
  | clearTile => exact obeys_onSave (Image.obeys_clearTile fun w hw => hK _ ⟨w, rfl, hw⟩) s
  | setEvent p on => exact obeys_setEvent (hK _ rfl) s
  | setMark k on => exact obeys_setMark (fun w hw => hK _ ⟨w, rfl, hw⟩) s
  | applyWrite write => exact obeys_onSave (Image.obeys_applyWrite fun w hw => hK _ ⟨w, rfl, hw⟩) s
  | load m => exact absurd rfl (hload m)
  | saveState => exact holds_saveState (fun w hw => hK _ ⟨w, rfl, hw⟩) hroom
  | takeSave => exact Rule.holds_modify ((Change.unload s).leads (hK _ rfl))
  | setChapter c =>
    exact obeys_setChapter (hK _ (.inl rfl)) (fun w hw => hK _ (.inr ⟨w, rfl, hw⟩)) c s
  | setZone z => exact Rule.holds_modify ((Change.place s s.chapter z).leads (hK _ rfl))
  | setClock c => exact Rule.holds_modify ((Change.clock s c).leads (hK _ rfl))
  | fillUsualRoles => exact obeys_fillUsualRoles (hK _ (.inl rfl)) (hK _ (.inr rfl)) s
  | setTextVariable slot source =>
    exact obeys_setTextVariable (hK _ (.inl rfl)) (hK _ (.inr rfl)) slot source s
  | assignRole slot id => exact obeys_assignRole (hK _ (.inl rfl)) (hK _ (.inr rfl)) slot id s
  | setActiveCharacter id =>
    refine obeys_withMember (fun s c t _ h => ?_) (fun s c e h => by cases h) s
    cases h
    refine (Change.note ?_).leads (hK _ rfl)
    constructor <;> rfl
  | clearDialog =>
    refine Rule.holds_modify (((Change.noRoles s).leads (hK _ (.inl rfl))).trans ?_)
    refine (Change.note ?_).leads (hK _ (.inr rfl))
    constructor <;> rfl
  | regroup p => exact Rule.holds_modify ((Change.regroup s p).leads (hK _ rfl))
  | note f h => exact Rule.holds_modify ((Change.note (h s)).leads (hK _ rfl))

/-- Whether a move goes through or not, what it leaves comes of the changes it may be made of. -/
theorem leads_play {v : Move} (hK : ∀ d, v.Does d → K d)
    (hroom : s.ledger.entries.length ≤ Ledger.maxCapacity) : Leads K s (v.play.run s).2 := by
  -- A fault while loading leaves the session as it was, though it may be one of the image.
  by_cases hload : ∃ m, v = .load m
  · obtain ⟨m, rfl⟩ := hload
    rcases h : s.loaded m with e | t
    · rw [Move.play, load, Step.run_update_error h]
      exact .refl s
    · rw [Move.play, load, Step.run_update_ok h]
      exact (Change.load h).leads (hK _ rfl)
  · exact (holds_play hK hroom fun m h => hload ⟨m, h⟩).1

/-! ## Room in the ledger -/

/-- The ledger has the room that the settings give it, and holds no more. -/
structure FitsLedger (s : Session) : Prop where
  capacity : s.ledger.capacity = min s.settings.ledgerCapacity Ledger.maxCapacity
  bounded : s.ledger.Bounded

/-- No session holds more timed effects than an image has room for. -/
theorem FitsLedger.length_le (h : s.FitsLedger) : s.ledger.entries.length ≤ Ledger.maxCapacity := by
  refine Nat.le_trans h.bounded ?_
  rw [h.capacity]
  exact Nat.min_le_right _ _

/-- No change lets a ledger outgrow its room. -/
theorem Change.fitsLedger {d : Deed} (h : Change d s t) (hs : s.FitsLedger) : t.FitsLedger := by
  obtain ⟨hcapacity, hbounded⟩ := hs
  -- Only an effect that begins adds an entry, and it needs room to do so.
  cases h with
  | load h =>
    obtain ⟨_, ledger, _, _, _, _, -, -, hledger, -, -, -, -, rfl⟩ := loaded_eq_ok.1 h
    obtain ⟨hcapacity', hbounded', -⟩ := Ledger.load_eq_ok hledger
    exact ⟨hcapacity', hbounded'⟩
  | begin h =>
    obtain ⟨hbounded', hcapacity'⟩ := hbounded.add? h
    exact ⟨hcapacity'.trans hcapacity, hbounded'⟩
  | cast h =>
    obtain ⟨hbounded', hcapacity'⟩ := hbounded.add? h
    exact ⟨hcapacity'.trans hcapacity, hbounded'⟩
  | kindle h level =>
    obtain ⟨hbounded', hcapacity'⟩ := hbounded.add? h
    exact ⟨hcapacity'.trans hcapacity, hbounded'⟩
  | visit h span =>
    refine ⟨hcapacity, ?_⟩
    rw [Ledger.Bounded, List.length_set]
    exact hbounded
  | sweep => exact ⟨hcapacity, hbounded.filter _⟩
  | douse => exact ⟨hcapacity, hbounded.filter _⟩
  | note h =>
    refine ⟨?_, ?_⟩
    · rw [h.ledger, h.settings]
      exact hcapacity
    · rw [h.ledger]
      exact hbounded
  | _ => exact ⟨hcapacity, hbounded⟩

theorem Leads.fitsLedger (h : Leads K s t) (hs : s.FitsLedger) : t.FitsLedger :=
  h.keeps (fun _ hchange => hchange.fitsLedger) hs

/-- No change touches the settings. -/
theorem Change.settings {d : Deed} (h : Change d s t) : t.settings = s.settings := by
  cases h with
  | load h =>
    obtain ⟨_, _, _, _, _, _, -, -, -, -, -, -, -, rfl⟩ := loaded_eq_ok.1 h
    rfl
  | note h => exact h.settings
  | _ => rfl

/-! ## Runs -/

/-- One session comes from another by moves that `P` allows. -/
def Runs (P : Move → Prop) : Session → Session → Prop :=
  Relation.ReflTransGen fun s t => ∃ v, P v ∧ t = (v.play.run s).2

/-- The session comes from one that has just begun. -/
def Reachable (s : Session) : Prop :=
  ∃ settings party, Runs (fun _ => True) (ofSettings settings party) s

variable {P : Move → Prop}

/-- A run is made of the changes that its moves may be made of. -/
theorem Runs.leads (hK : ∀ v, P v → ∀ d, v.Does d → K d) (h : Runs P s t) (hs : s.FitsLedger) :
    Leads K s t := by
  induction h with
  | refl => exact .refl s
  | tail _ h ih =>
    obtain ⟨v, hv, rfl⟩ := h
    exact ih.trans (leads_play (hK v hv) (ih.fitsLedger hs).length_le)

/-- What every change keeps that a run may be made of, the run keeps. -/
theorem Runs.keeps {I : Session → Prop} (hK : ∀ v, P v → ∀ d, v.Does d → K d)
    (hI : ∀ {d s t}, K d → Change d s t → I s → I t) (h : Runs P s t) (hfit : s.FitsLedger)
    (hs : I s) : I t :=
  (h.leads hK hfit).keeps hI hs

theorem fitsLedger_ofSettings (settings : Settings) (party : Party) :
    (ofSettings settings party).FitsLedger :=
  ⟨rfl, Nat.zero_le _⟩

/-- In every session in play the ledger fits into its room. -/
theorem Reachable.fitsLedger (h : s.Reachable) : s.FitsLedger := by
  obtain ⟨settings, party, hrun⟩ := h
  have hfit := fitsLedger_ofSettings settings party
  exact (hrun.leads (K := fun _ => True) (fun _ _ _ _ => trivial) hfit).fitsLedger hfit

theorem Reachable.play (h : s.Reachable) (v : Move) : (v.play.run s).2.Reachable := by
  obtain ⟨settings, party, hrun⟩ := h
  exact ⟨settings, party, hrun.tail ⟨v, trivial, rfl⟩⟩

end QuestLogic.Session
