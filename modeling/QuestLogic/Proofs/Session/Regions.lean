import QuestLogic.Proofs.Save.Regions
import QuestLogic.Proofs.Session.Move
import QuestLogic.Proofs.Session.RoundTrip

/-!
# Regions of the image do not interfere

Of all that is done with a session only saving, the beginning of a chapter, and loading or taking
away the image touch what stands before the flags; everything else writes flags or leaves the image
alone (`Session.writesFlags_of_move`). Saving in turn stays within the fields in `Session.Saved`,
since the record of the timed effects ends before the first purse as long as the ledger fits into
its room. So neither the flags, nor the purses, nor the saved fields are in each other's way
(`Session.regions_apart`).
-/

namespace QuestLogic

namespace Image

/-- A byte outside several rows of bytes is what it was once they are laid down. -/
theorem byteAt_putAll {m : Image} {ws : List (Nat × List UInt8)} {i : Nat}
    (h : ∀ w ∈ ws, i < w.1 ∨ w.1 + w.2.length ≤ i) : (m.putAll ws).byteAt i = m.byteAt i := by
  induction ws generalizing m with
  | nil => rfl
  | cons w rest ih =>
    rw [putAll, ih fun w' hw' => h w' (List.mem_cons_of_mem w hw'),
      byteAt_putBytes_of_disjoint (h w List.mem_cons_self)]

end Image

namespace Session

variable {s t : Session} {m : Image} {d : Deed} {i : Nat}

/-! ## Moves that write flags only -/

/-- The change leaves the image where it is, and all but its flags alone. -/
def Deed.WritesFlags : Deed → Prop
  | .image d => d.WritesFlags
  | .load _ | .unload => False
  | _ => True

theorem writesFlags_of_passage (hd : d.OfPassage) : d.WritesFlags := by
  cases hd
  all_goals trivial

/-- An action writes no more of the image than flags. -/
theorem writesFlags_of_action {a : Action} (hd : a.Does d) : d.WritesFlags := by
  cases a with
  | setFlag write =>
    obtain rfl | ⟨w, hw, rfl⟩ := hd
    · trivial
    · exact hw.writesFlags
  | setAddResetState | gainSkill | gainCondition | setTextVariable =>
    obtain rfl | rfl := hd
    all_goals trivial
  | elapseTime => exact writesFlags_of_passage hd
  | special =>
    cases hd with
    | resetCombat h => exact h.writesFlags
    | setCombat h => exact h.writesFlags
    | _ => trivial
  | unknown kind data => exact hd.elim
  | _ =>
    cases hd
    trivial

/-- Nor does what is noted of an encounter. -/
theorem writesFlags_of_encounter {e : Encounter} (hd : d.OfEncounter e) : d.WritesFlags := by
  cases hd with
  | done => trivial
  | unique _ _ h => exact h.writesFlags
  | recent _ h => exact h.writesFlags

/-- The move begins no chapter, neither loads nor saves, and does not take the image away. -/
def Move.WritesFlags : Move → Prop
  | transition _ _ _ | setChapter _ | load _ | saveState | takeSave => False
  | _ => True

theorem writesFlags_of_move {v : Move} (hv : v.WritesFlags) (hd : v.Does d) : d.WritesFlags := by
  cases v with
  | transition | setChapter | load | saveState | takeSave => exact hv.elim
  | perform a => exact writesFlags_of_action hd
  | performAll as =>
    obtain ⟨a, -, hd⟩ := hd
    exact writesFlags_of_action hd
  | chain dialogs first =>
    obtain ⟨_, _, -, a, -, hd⟩ := hd
    exact writesFlags_of_action hd
  | elapse | passTime | reduceLedger => exact writesFlags_of_passage hd
  | putOut | fillUsualRoles | setTextVariable | assignRole | clearDialog =>
    obtain rfl | rfl := hd
    all_goals trivial
  | extinguish =>
    obtain rfl | rfl | rfl := hd
    all_goals trivial
  | noteDialog | noteScene | noteSwitch => exact writesFlags_of_encounter hd
  | noteCombat =>
    obtain ⟨_, -, rfl⟩ := hd
    trivial
  | clearTile =>
    obtain ⟨_, rfl, hw⟩ := hd
    exact hw.writesFlags
  | setMark =>
    obtain ⟨_, rfl, hw⟩ := hd
    exact hw.writesFlags
  | applyWrite =>
    obtain ⟨_, rfl, hw⟩ := hd
    exact hw.writesFlags
  | _ =>
    cases hd
    trivial

/-- A step that writes flags, and nothing else of the image: any move but those that save, load or
begin a chapter, and the two ways in which the beginning of a chapter clears flags. -/
inductive FlagWriter : Step Session Unit → Prop
  | move {v : Move} (h : v.WritesFlags) : FlagWriter v.play
  | unique : FlagWriter (onSave Image.clearUnique)
  | unseen (c : CharId) : FlagWriter (onSave (Image.clearUnseen c))

/-- What a writer of flags makes of a session comes of writing flags. -/
theorem FlagWriter.leads {x : Step Session Unit} (hx : FlagWriter x) (hfit : s.FitsLedger) :
    Leads Deed.WritesFlags s (x.run s).2 := by
  cases hx with
  | move hv => exact leads_play (fun _ hd => writesFlags_of_move hv hd) hfit.length_le
  | unique => exact (obeys_onSave (Image.obeys_clearUnique fun _ hd => hd.writesFlags) s).1
  | unseen c => exact (obeys_onSave (Image.obeys_clearUnseen fun _ hd => hd.writesFlags) s).1

/-- The session has an image that agrees with another in all that stands before the flags. -/
def KeepsFront (m : Image) (s : Session) : Prop :=
  ∃ m', s.save = some m' ∧ m'.size = m.size ∧
    ∀ i < Layout.simpleEvents, m'.byteAt i = m.byteAt i

theorem Change.keepsFront (h : Change d s t) (hd : d.WritesFlags) (hs : KeepsFront m s) :
    KeepsFront m t := by
  refine h.keeps_save (fun hw hchange ⟨hsize, hfront⟩ => ?_) hd hs
  exact ⟨hchange.size_eq.trans hsize, fun i hi =>
    (hchange.byteAt_of_flags hw hi).trans (hfront i hi)⟩

/-! ## What saving writes -/

/-- The fields that saving writes, by where they stand and the room that they have. -/
def savedFields : List (Nat × Nat) :=
  [(Layout.chapter, 2), (Layout.zone, 1), (Layout.gold, 4), (Layout.time, 4),
    (Layout.lastSlept, 4), (Layout.effects, Layout.stash - Layout.effects)]

/-- The byte lies in one of the fields that saving writes. -/
def Saved (i : Nat) : Prop := ∃ f ∈ savedFields, f.1 ≤ i ∧ i < f.1 + f.2

/-- All that is saved lies in these fields, as long as the ledger fits into its room. -/
theorem saved_of_mem_fields (hroom : s.ledger.entries.length ≤ Ledger.maxCapacity)
    {w : Nat × List UInt8} (hw : w ∈ s.fields) (hlow : w.1 ≤ i) (hhigh : i < w.1 + w.2.length) :
    Saved i := by
  have hbytes : s.ledger.bytes.length ≤ Layout.stash - Layout.effects := by
    rw [Ledger.length_bytes]
    rw [Ledger.maxCapacity] at hroom
    rw [Layout.stash, Layout.effects]
    omega
  unfold fields at hw
  simp only [List.mem_cons, List.not_mem_nil, or_false] at hw
  rcases hw with rfl | rfl | rfl | rfl | rfl | rfl
  · exact ⟨(Layout.chapter, 2), by decide, hlow, hhigh⟩
  · exact ⟨(Layout.zone, 1), by decide, hlow, hhigh⟩
  · exact ⟨(Layout.gold, 4), by decide, hlow, hhigh⟩
  · exact ⟨(Layout.time, 4), by decide, hlow, hhigh⟩
  · exact ⟨(Layout.lastSlept, 4), by decide, hlow, hhigh⟩
  · exact ⟨(Layout.effects, Layout.stash - Layout.effects), by decide, hlow,
      Nat.lt_of_lt_of_le hhigh (Nat.add_le_add_left hbytes _)⟩

/-- The fields that saving writes end before the first purse. -/
theorem Saved.lt_stash (h : Saved i) : i < Layout.stash := by
  obtain ⟨f, hf, -, hlt⟩ := h
  have hend : ∀ f ∈ savedFields, f.1 + f.2 ≤ Layout.stash := by decide
  exact Nat.lt_of_lt_of_le hlt (hend f hf)

/--
In a session in play over an image that reaches to the end of the flags, no part of the image is in
the way of another. Whatever writes flags, be it a flag or a mark that is set, the payload of an
action, an encounter that is noted or an effect that comes due, changes no byte before them, whether
or not it meets a fault. Saving goes through and changes no byte but those of its fields, and so
every flag and every purse reads as before. To set aside the purse of a chapter of the story goes
through and changes no byte but the four of that purse.
-/
theorem regions_apart (hs : s.Reachable) (hsave : s.save = some m) (hm : Layout.size ≤ m.size) :
    (∀ x, FlagWriter x → ∃ m', (x.run s).2.save = some m' ∧ m'.size = m.size ∧
        ∀ i < Layout.simpleEvents, m'.byteAt i = m.byteAt i) ∧
      (∃ m', saveState.run s = (.ok (), { s with save := some m' }) ∧ m'.size = m.size ∧
        (∀ i, ¬Saved i → m'.byteAt i = m.byteAt i) ∧
        (∀ p, m'.readEvent p = m.readEvent p ∧ m'.readFlag p = m.readFlag p) ∧
        ∀ c, m'.stashed c = m.stashed c) ∧
      ∀ c : Chapter, c.inStory = true → ∀ gold, ∃ m',
        (onSave (Image.setStash c gold)).run s = (.ok (), { s with save := some m' }) ∧
          m'.size = m.size ∧
          ∀ i, (i < Layout.stash + (c.val.toNat - 1) * 4 ∨
            Layout.stash + (c.val.toNat - 1) * 4 + 4 ≤ i) → m'.byteAt i = m.byteAt i := by
  have hfit := hs.fitsLedger
  refine ⟨fun x hx => ?_, ?_, fun c hc gold => ?_⟩
  · exact (hx.leads hfit).keeps (P := KeepsFront m) (fun hd h => h.keepsFront hd)
      ⟨m, hsave, rfl, fun _ _ => rfl⟩
  · have hsize : (m.putAll s.fields).size = m.size := Image.size_putAll m _
    have hrun : saveState.run s = (.ok (), { s with save := some (m.putAll s.fields) }) := by
      rw [run_saveState hsave, run_writeFields (fits_fields hm hfit.length_le)]
    have hothers : ∀ i, ¬Saved i → (m.putAll s.fields).byteAt i = m.byteAt i := fun i hi =>
      Image.byteAt_putAll fun w hw => by
        by_contra hin
        obtain ⟨hlow, hhigh⟩ := not_or.1 hin
        exact hi (saved_of_mem_fields hfit.length_le hw (Nat.le_of_not_lt hlow)
          (Nat.lt_of_not_le hhigh))
    -- Flags and purses lie past all that is saved.
    have hpast : ∀ i, Layout.stash ≤ i → (m.putAll s.fields).byteAt i = m.byteAt i := fun i hi =>
      hothers i fun hsaved => Nat.not_le.2 hsaved.lt_stash hi
    have hflags : ∀ i, Layout.simpleEvents ≤ i → (m.putAll s.fields).byteAt i = m.byteAt i :=
      fun i hi => hpast i (Nat.le_trans (by decide) hi)
    refine ⟨_, hrun, hsize, hothers, fun p => ?_, fun c => ?_⟩
    · exact ⟨Image.readEvent_congr hsize hflags p, Image.readFlag_congr hsize hflags p⟩
    · refine Image.stashed_congr hsize fun offset hoffset i _ => hpast _ ?_
      exact Nat.le_trans (Image.stashOffset_within hoffset).1 (Nat.le_add_right _ _)
  · obtain ⟨m', hrun, hsize, hothers⟩ := Image.run_setStash hm hc gold
    refine ⟨m', ?_, hsize, hothers⟩
    rw [run_onSave_some hsave, hrun]

/-- In a game that has been loaded, the last flag there is can be written, the game saved and the
purse of the last chapter set aside. -/
theorem regions_apart_loaded : ∃ s m, s.Reachable ∧ s.save = some m ∧ Layout.size ≤ m.size ∧
    (∃ m', ((perform (.setFlag ⟨0xffff, 0, 0xff, 0, 1⟩)).run s).2.save = some m' ∧
      ∀ i < Layout.simpleEvents, m'.byteAt i = m.byteAt i) ∧
    (∃ m', saveState.run s = (.ok (), { s with save := some m' }) ∧
      m'.readFlag 0xffff = m.readFlag 0xffff ∧ m'.stashed ⟨1⟩ = m.stashed ⟨1⟩) ∧
    ∃ m', (onSave (Image.setStash ⟨9⟩ ⟨500⟩)).run s = (.ok (), { s with save := some m' }) ∧
      m'.byteAt Layout.simpleEvents = m.byteAt Layout.simpleEvents := by
  have hbegun : (default : Session).Reachable := ⟨.usual, .initial, .refl⟩
  obtain ⟨m, s, hm, hload, hsave, -, -⟩ :=
    exists_loaded_fields default hbegun.fitsLedger (by decide)
  have hs : s.Reachable := by
    have hplay := hbegun.play (.load m)
    rwa [Move.play, load, Step.run_update_ok hload] at hplay
  obtain ⟨hflags, ⟨m₁, hsaved, -, -, hevents, hpurses⟩, hstash⟩ := regions_apart hs hsave hm
  have hwriter : FlagWriter (perform (.setFlag ⟨0xffff, 0, 0xff, 0, 1⟩)) :=
    FlagWriter.move (v := .perform (.setFlag ⟨0xffff, 0, 0xff, 0, 1⟩)) trivial
  obtain ⟨m₂, hset, -, hfront⟩ := hflags _ hwriter
  obtain ⟨m₃, haside, -, hothers⟩ := hstash ⟨9⟩ rfl ⟨500⟩
  exact ⟨s, m, hs, hsave, hm, ⟨m₂, hset, hfront⟩, ⟨m₁, hsaved, (hevents _).2, hpurses _⟩, m₃,
    haside, hothers _ (.inr (by decide))⟩

end Session

end QuestLogic
