import QuestLogic.Proofs.Session.Encounter
import QuestLogic.Proofs.Session.Purse

/-!
# Play over a whole image

An image that reaches to the end of the flags is never found corrupt, whatever is done with its
session and whatever is asked of it. What is done is made of changes that leave the image as long as
it was (`Session.keepsImage_of_move`); what is asked changes nothing, and fails on an image only
where the image ends too soon (`Session.ask_error`). From one turn to the next the session keeps
both its room in the ledger and the length of its image (`Session.leads_played`), so that the same
holds of any number of turns.
-/

namespace QuestLogic

/-- Picking out elements fails where the test of one of them does. -/
theorem List.filterAuxM_error {α ε : Type} {test : α → Except ε Bool} {l acc : List α} {e : ε}
    (h : l.filterAuxM test acc = .error e) : ∃ a ∈ l, test a = .error e := by
  induction l generalizing acc with
  | nil => cases h
  | cons a rest ih =>
    rcases Except.bind_eq_error.1 h with ha | ⟨b, -, hrest⟩
    · exact ⟨a, List.mem_cons_self, ha⟩
    · obtain ⟨a', ha', htest⟩ := ih hrest
      exact ⟨a', List.mem_cons_of_mem a ha', htest⟩

theorem Image.manyTemplesSeen_error {m : Image} {e : Fault} (h : m.manyTemplesSeen = .error e)
    (he : e.isCorruption = true) : m.size < Layout.size := by
  rcases Except.bind_eq_error.1 h with hseen | ⟨_, -, hdone⟩
  · rcases Except.bind_eq_error.1 hseen with hpicked | ⟨_, -, hdone⟩
    · obtain ⟨n, -, hmark⟩ := List.filterAuxM_error hpicked
      exact Image.marked_error hmark he
    · cases hdone
  · cases hdone

namespace Session

variable {s t : Session} {e : Fault} {d : Deed}

/-! ## Questions -/

/-- What may be asked of a session. -/
inductive Question where
  | state (p : EventPtr)
  | flag (p : EventPtr)
  | mark (k : Mark)
  | temples
  | stash (c : Chapter)
  | choice (c : Choice)
  | branches (bs : List Branch)
  | blocked (e : Encounter)
  | mayMeet (e : Encounter)
  | mayFight (e : Encounter) (combat : UInt16)

/-- Whether a question finds an answer. -/
def ask (s : Session) : Question → Except Fault Unit
  | .state p => (fun _ => ()) <$> s.eventState p
  | .flag p => (fun _ => ()) <$> s.eventFlag p
  | .mark k => (fun _ => ()) <$> s.marked k
  | .temples => (fun _ => ()) <$> s.manyTemplesSeen
  | .stash c => (fun _ => ()) <$> s.readSave .none (·.stashed c)
  | .choice c => (fun _ => ()) <$> s.holds c
  | .branches bs => (fun _ => ()) <$> s.lastHolding bs
  | .blocked e => (fun _ => ()) <$> s.isBlocked e
  | .mayMeet e => (fun _ => ()) <$> s.mayMeet e
  | .mayFight e combat => (fun _ => ()) <$> s.mayFight e combat

/-- What is made of an answer does not matter to its fault. -/
theorem of_map_error {α β : Type} {x : Except Fault α} {f : α → β} (h : f <$> x = .error e) :
    x = .error e := by
  cases x with
  | error e' =>
    cases h
    rfl
  | ok a => cases h

theorem flagIs_error {p : EventPtr} {value : Bool} (h : s.flagIs p value = .error e) :
    s.IsCutShort := by
  unfold flagIs at h
  split_ifs at h
  exact eventState_error (of_map_error h)

theorem isBlocked_error {e' : Encounter} (h : s.isBlocked e' = .error e) : s.IsCutShort := by
  rcases Except.bind_eq_error.1 h with hset | ⟨_, -, h⟩
  · exact flagIs_error hset
  · rcases Except.bind_eq_error.1 h with hclear | ⟨_, -, h⟩
    · exact flagIs_error hclear
    · cases h

/-- Two marks are looked at, and then the flags that the encounter names. -/
theorem of_marks_error {k k' : Mark} {e' : Encounter} {f : Bool → Bool → Bool → Bool}
    (h : (do
      let a ← s.marked k
      let b ← s.marked k'
      let c ← s.isBlocked e'
      return f a b c) = .error e) (he : e.isCorruption = true) : s.IsCutShort := by
  rcases Except.bind_eq_error.1 h with hfirst | ⟨_, -, h⟩
  · exact marked_error hfirst he
  · rcases Except.bind_eq_error.1 h with hsecond | ⟨_, -, h⟩
    · exact marked_error hsecond he
    · rcases Except.bind_eq_error.1 h with hblocked | ⟨_, -, h⟩
      · exact isBlocked_error hblocked
      · cases h

theorem mayMeet_error {e' : Encounter} (h : s.mayMeet e' = .error e)
    (he : e.isCorruption = true) : s.IsCutShort := by
  unfold mayMeet at h
  split_ifs at h
  · cases h
  · exact of_marks_error h he

theorem mayFight_error {e' : Encounter} {combat : UInt16} (h : s.mayFight e' combat = .error e)
    (he : e.isCorruption = true) : s.IsCutShort := of_marks_error h he

/-- A question finds the image corrupt only where the image ends before the flags do. -/
theorem ask_error {q : Question} (h : s.ask q = .error e) (he : e.isCorruption = true) :
    s.IsCutShort := by
  cases q with
  | state p => exact eventState_error (of_map_error h)
  | flag p => exact eventFlag_error (of_map_error h)
  | mark k => exact marked_error (of_map_error h) he
  | temples =>
    exact readSave_error (fun _ hm => Image.manyTemplesSeen_error hm he) (of_map_error h)
  | stash c =>
    exact (obeys_viewStash (K := fun _ => True) c s).2 e (of_map_error h) he
  | choice c => exact holds_error (of_map_error h)
  | branches bs => exact lastHolding_error (of_map_error h)
  | blocked e' => exact isBlocked_error (of_map_error h)
  | mayMeet e' => exact mayMeet_error (of_map_error h) he
  | mayFight e' combat => exact mayFight_error (of_map_error h) he

/-! ## Changes that leave the image in its place -/

/-- The change neither takes the image away nor puts another in its place. -/
def Deed.KeepsImage : Deed → Prop
  | .load _ | .unload => False
  | _ => True

theorem Deed.KeepsImage.keepsLength (hd : d.KeepsImage) : d.KeepsLength := by
  cases d with
  | load => exact hd
  | _ => trivial

theorem Deed.SparesStash.keepsImage (hd : d.SparesStash) : d.KeepsImage := by
  cases d with
  | load | unload => exact hd
  | _ => trivial

/-- The image stays as long as it was. -/
theorem Change.imageSize (h : Change d s t) (hd : d.KeepsImage) :
    t.save.map Image.size = s.save.map Image.size := by
  cases h with
  | image hsave hchange => rw [hsave, Option.map_some, Option.map_some, hchange.size_eq]
  | load | unload => exact hd.elim
  | note h => rw [h.save]
  | _ => rfl

theorem Leads.imageSize (h : Leads Deed.KeepsImage s t) :
    t.save.map Image.size = s.save.map Image.size :=
  h.keeps (P := fun u => u.save.map Image.size = s.save.map Image.size)
    (fun hd hchange hs => (hchange.imageSize hd).trans hs) rfl

theorem Leads.not_isCutShort (h : Leads Deed.KeepsImage s t) (hs : ¬s.IsCutShort) :
    ¬t.IsCutShort :=
  h.keeps (P := fun u => ¬u.IsCutShort)
    (fun hd hchange hs => hchange.not_isCutShort hd.keepsLength hs) hs

/-- The move neither takes the image away nor puts another in its place. -/
def Move.KeepsImage : Move → Prop
  | load _ | takeSave => False
  | _ => True

theorem keepsImage_of_chapter (hd : d.OfChapter) : d.KeepsImage := by
  cases hd with
  | passage h => exact (sparesStash_of_passage h).keepsImage
  | _ => trivial

/-- What such a move is made of leaves the image in its place. -/
theorem keepsImage_of_move {v : Move} (hv : v.KeepsImage) (hd : v.Does d) : d.KeepsImage := by
  cases v with
  | load | takeSave => exact hv.elim
  | transition c story dialogs =>
    rcases hd with hd | ⟨_, _, -, a, -, hd⟩
    · exact keepsImage_of_chapter hd
    · exact (sparesStash_of_action hd).keepsImage
  | _ => exact (sparesStash_of_move (by trivial) hd).keepsImage

/-! ## Turns -/

/-- A turn of the world: something is done with the session, or something is asked of it. -/
inductive Turn where
  | move (v : Move) (h : v.KeepsImage)
  | ask (q : Question)

/-- What a turn does to a session. -/
def Turn.play : Turn → Step Session Unit
  | move v _ => v.play
  | ask q => .view (·.ask q)

/-- The session after some turns, whether or not they meet a fault. -/
def played : List Turn → Session → Session
  | [], s => s
  | turn :: rest, s => played rest (turn.play.run s).2

/-- A turn leaves the image in its place, and finds it corrupt only where it ends too soon. -/
theorem holds_turn (hfit : s.FitsLedger) (turn : Turn) :
    (rule Deed.KeepsImage).Holds turn.play s := by
  cases turn with
  | move v hv =>
    refine holds_play (fun d hd => keepsImage_of_move hv hd) hfit.length_le fun m h => ?_
    rw [h] at hv
    exact hv
  | ask q => exact ⟨.refl s, fun e h he => ask_error h he⟩

theorem leads_played (hfit : s.FitsLedger) (turns : List Turn) :
    Leads Deed.KeepsImage s (played turns s) := by
  induction turns generalizing s with
  | nil => exact .refl s
  | cons turn rest ih =>
    have hturn := (holds_turn hfit turn).1
    exact hturn.trans (ih (hturn.fitsLedger hfit))

/--
Over an image that reaches to the end of the flags, or without one, no turn finds the image corrupt,
whatever turns have come before it, and the image stays as long as it was. So a list of actions is
carried out to its end: what it leaves is what comes of the actions one after the other, whether or
not they meet a fault. The ledger is to fit into its room, as it does in every session in play
(`Reachable.fitsLedger`).
-/
theorem sound_of_played (hfit : s.FitsLedger)
    (hs : ∀ m, s.save = some m → Layout.size ≤ m.size) (turns : List Turn) :
    (∀ turn : Turn, ∀ e, (turn.play.run (played turns s)).1 = .error e → e.isCorruption = false) ∧
      (played turns s).save.map Image.size = s.save.map Image.size ∧
      ∀ as, (performAll as).run (played turns s) =
        (.ok (), as.foldl (fun t a => ((perform a).run t).2) (played turns s)) := by
  have hwhole : ¬s.IsCutShort := by
    rintro ⟨m, hm, hsize⟩
    exact absurd (hs m hm) (Nat.not_le.2 hsize)
  have hlead := leads_played hfit turns
  have hplayed := hlead.not_isCutShort hwhole
  refine ⟨fun turn e he => ?_, hlead.imageSize, run_performAll_eq hplayed⟩
  obtain ⟨hturn, hfault⟩ := holds_turn (hlead.fitsLedger hfit) turn
  rw [← Bool.not_eq_true]
  exact fun hcorrupt => hturn.not_isCutShort hplayed (hfault e he hcorrupt)

/-- A game that comes to the last flags there are, asks for a combat that has no flag, spends a day
and more, and begins a chapter. -/
def eventful : List Turn :=
  [.move (.performAll [.setFlag ⟨0xffff, 0, 0xff, 0xdfff, 1⟩, .setAddResetState 0xcfff ⟨1⟩])
      trivial,
    .ask (.choice (.complexEvent 0xdfff 0 0xff 0 0)), .ask (.mayFight ambush 0x3e8),
    .move (.elapse ⟨50000⟩) trivial, .move .saveState trivial,
    .move (.transition ⟨7⟩ ⟨[(⟨7⟩, ⟨⟨1⟩, ⟨0, 0⟩, ⟨0⟩, none⟩)], none⟩ .empty) trivial]

/-- On a blank image the game can be saved after that, the image is as long as it was, and a spell
that nobody can learn does not keep the last flag from being set. -/
theorem sound_of_played_eventful :
    onBlank.FitsLedger ∧ (∀ m, onBlank.save = some m → Layout.size ≤ m.size) ∧
      (∀ e, (saveState.run (played eventful onBlank)).1 = .error e → e.isCorruption = false) ∧
      (played eventful onBlank).save.map Image.size = some Layout.size ∧
      (performAll [.learnSpell 0 ⟨0xff⟩, .setFlag ⟨0xffff, 0, 0, 0, 1⟩]).run
          (played eventful onBlank) =
        (.ok (), ((perform (.setFlag ⟨0xffff, 0, 0, 0, 1⟩)).run
          ((perform (.learnSpell 0 ⟨0xff⟩)).run (played eventful onBlank)).2).2) := by
  have hfit : onBlank.FitsLedger := ⟨rfl, Nat.zero_le _⟩
  have hwhole : ∀ m, onBlank.save = some m → Layout.size ≤ m.size := by
    rintro m ⟨⟩
    exact Image.full_zeroed
  obtain ⟨hturn, hsize, hactions⟩ := sound_of_played hfit hwhole eventful
  generalize played eventful onBlank = t at hturn hsize hactions ⊢
  refine ⟨hfit, hwhole, hturn (.move .saveState trivial), hsize.trans ?_, ?_⟩
  · exact congrArg some (Image.size_zeroed _)
  · rw [hactions, List.foldl_cons, List.foldl_cons, List.foldl_nil]

end Session

end QuestLogic
