import QuestLogic.Proofs.Event.Flags
import QuestLogic.Proofs.Session.Encounter
import QuestLogic.Proofs.Session.Move

/-!
# Encounters that come again

A dialog that is met once in a chapter is not met again: no going about clears its flag, since what
going about clears are flags of other ranges, and what saving writes ends before the first flag
(`Session.mayMeet_after_noteDialog`). An encounter that may always be met leaves its own marks alone
if it was a dialog or a scene. If it unlocked or closed something and is one of those met once in a
chapter, it is marked as met all the same (`Session.marks_of_always`), and then it is not met again
(`Session.mayMeet_after_noteSwitch`).
-/

namespace QuestLogic

namespace Image

variable {m m' : Image} {d : Deed} {l : Nat × Nat} {k : Mark} {p : EventPtr}

/-- The write does not clear a bit: it clears flags elsewhere, if any, and lays words down before
the flags. -/
def Deed.LeavesSet (l : Nat × Nat) : Deed → Prop
  | .flag p on => p.location = l → on = true
  | .byte _ => False
  | .word offset bs => offset + bs.length ≤ Layout.simpleEvents

/-- A bit that is set stays set. -/
theorem Change.bit_of_leavesSet (h : Change d m m') (hd : d.LeavesSet l)
    (hl : Layout.simpleEvents ≤ l.1) (hbit : m.bit l = true) : m'.bit l = true := by
  cases h with
  | flag on hp =>
    rw [bit_withFlag_of_lt hp]
    split_ifs with heq
    · exact hd heq.symm
    · exact hbit
  | byte => exact hd.elim
  | word => exact (bit_putBytes hd hl).trans hbit

/-- Bytes laid down in a field before the flags clear none of them. -/
theorem Deed.OfField.leavesSet {offset width : Nat} (h : d.OfField offset width)
    (hend : offset + width ≤ Layout.simpleEvents) : d.LeavesSet l := by
  cases h with
  | word hwidth => exact Nat.le_trans (Nat.add_le_add_left hwidth offset) hend

/-- To set a mark clears nothing. -/
theorem Deed.OfMark.leavesSet (h : d.OfMark k true) : d.LeavesSet l := by
  cases h
  exact fun _ => rfl

/-- To set or clear a mark clears no flag of another range. -/
theorem Deed.OfMark.leavesSet_of_ne {on : Bool} (h : d.OfMark k on) {r : FlagRange}
    (hr : r ∈ FlagRange.all) (hk : k.range ≠ r) (hp : p ∈ r.pointers) :
    d.LeavesSet p.location := by
  cases h with
  | flag hplace =>
    intro heq
    exact absurd heq
      (FlagRange.location_ne_of_mem k.range_mem_all hr hk (Mark.mem_range hplace) hp)

/-- However short the image, a mark reads as before where the flag of none of its kind has been
written. -/
theorem marked_withFlag_of_ne (hp : p.location.1 < m.size) (hne : k.place ≠ .ok (some p))
    (on : Bool) : (m.withFlag p on).marked k = m.marked k := by
  rcases hplace : k.place with e | _ | q
  · rw [marked, marked, hplace]
    rfl
  · rw [marked, marked, hplace]
    rfl
  · have hend : k.range.stop ≤ 0x2138 := FlagRange.stop_le_of_mem _ k.range_mem_all
    obtain ⟨-, hq⟩ := FlagRange.toNat_of_mem_pointers (Nat.le_trans hend (by decide))
      (Mark.mem_range hplace)
    have hqp : q.location ≠ p.location := fun heq => by
      have hsame : p = q := (EventPtr.location_eq_iff (by omega)).1 heq.symm
      exact hne (by rw [hplace, hsame])
    rw [marked_of_place hplace, marked_of_place hplace,
      readFlag_withFlag_of_lt hp (by omega), if_neg hqp]

/-- However short the image, a mark that has been written reads as it was written. -/
theorem marked_withFlag_self (hplace : k.place = .ok (some p)) (hp : p.location.1 < m.size)
    (on : Bool) : (m.withFlag p on).marked k = .ok on := by
  have hend : k.range.stop ≤ 0x2138 := FlagRange.stop_le_of_mem _ k.range_mem_all
  obtain ⟨-, hlt⟩ := FlagRange.toNat_of_mem_pointers (Nat.le_trans hend (by decide))
    (Mark.mem_range hplace)
  rw [marked_of_place hplace, readFlag_withFlag_of_lt hp (by omega), if_pos rfl]

end Image

namespace Session

variable {s t u : Session} {m m' : Image} {d : Deed} {e : Encounter} {k : Mark} {p : EventPtr}
  {l : Nat × Nat} {on : Bool}

/-! ## What is noted -/

/-- A flag that has been written had its byte. -/
theorem setEvent_eq_ok (hsave : s.save = some m) (h : (setEvent p on).run s = (.ok (), t)) :
    p.location.1 < m.size ∧ t = { s with save := some (m.withFlag p on) } := by
  rw [setEvent, run_onSave_some hsave] at h
  rcases hrun : (Image.setFlag p on).run m with ⟨_ | _, m'⟩
  · rw [hrun] at h
    cases h
  · obtain ⟨hlt, rfl⟩ := Image.setFlag_eq_ok hrun
    rw [hrun] at h
    cases h
    exact ⟨hlt, rfl⟩

/-- A mark that has been written had a flag, unless it needs none. -/
theorem setMark_eq_ok (hsave : s.save = some m) (h : (setMark k on).run s = (.ok (), t)) :
    (k.place = .ok none ∧ t = s) ∨ ∃ p, k.place = .ok (some p) ∧ p.location.1 < m.size ∧
      t = { s with save := some (m.withFlag p on) } := by
  rcases hplace : k.place with e | _ | p
  · rw [setMark, run_onSave_some hsave, Image.setMark, hplace] at h
    cases h
  · rw [setMark, run_onSave_some hsave, Image.setMark, hplace] at h
    have hsame : { s with save := some m } = s := by rw [← hsave]
    rw [Step.run_pure, hsame] at h
    cases h
    exact .inl ⟨rfl, rfl⟩
  · have hevent : (setEvent p on).run s = (.ok (), t) := by
      rwa [setMark, Image.setMark_of_place hplace] at h
    exact .inr ⟨p, rfl, setEvent_eq_ok hsave hevent⟩

/-- What an encounter sets when it has happened is its own flag, if it has one. -/
theorem noteDone_eq_ok (hsave : s.save = some m) (h : (noteDone e).run s = (.ok (), t)) :
    t = s ∨ e.setAfter.location.1 < m.size ∧
      t = { s with save := some (m.withFlag e.setAfter true) } := by
  unfold noteDone at h
  split_ifs at h
  · cases h
    exact .inl rfl
  · exact .inr (setEvent_eq_ok hsave h)

/-- An encounter that is noted as met has a flag for it. -/
theorem noteUnique_eq_ok (hsave : s.save = some m) (h : (noteUnique e).run s = (.ok (), t)) :
    ∃ p, (s.uniqueMark e).place = .ok (some p) ∧ p.location.1 < m.size ∧
      t = { s with save := some (m.withFlag p true) } := by
  rw [noteUnique, Step.run_bind_ok (Step.run_get s)] at h
  rcases setMark_eq_ok hsave h with ⟨hnone, -⟩ | hsome
  · obtain ⟨_, -, hcontra⟩ := Image.place_unique.1 hnone
    cases hcontra
  · exact hsome

/-- Within a zone the mark of an encounter is the same. -/
theorem uniqueMark_of_zone (h : t.zone = s.zone) : t.uniqueMark e = s.uniqueMark e := by
  rw [uniqueMark, uniqueMark, h]

/-! ## Met once in a chapter -/

/-- The change keeps the image where it is and does not clear a bit. -/
def Deed.LeavesSet (l : Nat × Nat) : Deed → Prop
  | .image d => d.LeavesSet l
  | .load _ | .unload => False
  | _ => True

/-- The session has an image that reaches to the end of the flags, and the bit is set in it. -/
def HasSet (s : Session) (l : Nat × Nat) : Prop :=
  ∃ m, s.save = some m ∧ Layout.size ≤ m.size ∧ m.bit l = true

theorem Change.hasSet (h : Change d s t) (hd : d.LeavesSet l) (hl : Layout.simpleEvents ≤ l.1)
    (hs : s.HasSet l) : t.HasSet l := by
  refine h.keeps_save (fun hw hchange ⟨hsize, hbit⟩ => ?_) hd hs
  exact ⟨by rwa [hchange.size_eq], hchange.bit_of_leavesSet hw hl hbit⟩

/-- The move belongs to going about: encounters of any kind are noted and those of a tile forgotten,
combats are fought and won, marks are set or cleared, save that no encounter is unmarked that is met
once in a chapter, special actions are carried out, the game is saved and zones change. -/
def Move.GoesAbout : Move → Prop
  | noteDialog _ | noteScene _ | noteSwitch _ | noteCombat _ | clearTile | saveState | setZone _
  | perform (.special _ _ _ _) => True
  | setMark k on => k.range = .uniqueEncounter → on = true
  | _ => False

/-- What is noted of an encounter clears nothing. -/
theorem leavesSet_of_encounter (hd : d.OfEncounter e) : d.LeavesSet l := by
  cases hd with
  | done => exact fun _ => rfl
  | unique _ _ h => exact h.leavesSet
  | recent _ h => exact h.leavesSet

/-- What saving writes ends before the first flag. -/
theorem leavesSet_of_save {w : Image.Deed} (hw : OfSave w) : w.LeavesSet l := by
  obtain ⟨_, _, h, hend⟩ := hw.exists_field
  exact h.leavesSet (Nat.le_trans hend (by decide))

/-- Going about never clears the flag of an encounter that is met once in a chapter. -/
theorem leavesSet_of_move {v : Move} (hv : v.GoesAbout)
    (hp : p ∈ FlagRange.uniqueEncounter.pointers) (hd : v.Does d) : d.LeavesSet p.location := by
  have hunique : FlagRange.uniqueEncounter ∈ FlagRange.all := by decide
  cases v with
  | noteDialog | noteScene | noteSwitch => exact leavesSet_of_encounter hd
  | noteCombat =>
    obtain ⟨_, -, rfl⟩ := hd
    exact fun _ => rfl
  | clearTile =>
    obtain ⟨_, rfl, hw⟩ := hd
    cases hw with
    | flag hq =>
      intro heq
      rcases List.mem_append.1 hq with hrecent | hscouted
      · exact absurd heq
          (FlagRange.location_ne_of_mem (by decide) hunique (by decide) hrecent hp)
      · exact absurd heq
          (FlagRange.location_ne_of_mem (by decide) hunique (by decide) hscouted hp)
  | setMark k on =>
    obtain ⟨_, rfl, hw⟩ := hd
    by_cases hk : k.range = .uniqueEncounter
    · rw [hv hk] at hw
      exact hw.leavesSet
    · exact hw.leavesSet_of_ne hunique hk hp
  | saveState =>
    obtain ⟨_, rfl, hw⟩ := hd
    exact leavesSet_of_save hw
  | setZone =>
    cases hd
    trivial
  | perform a =>
    cases a with
    | special a operand _ _ =>
      cases hd with
      | resetCombat h => exact h.leavesSet_of_ne hunique (by rw [Mark.range]; decide) hp
      | setCombat h => exact h.leavesSet
      | _ => trivial
    | _ => exact hv.elim
  | _ => exact hv.elim

/-- A dialog that is met once in a chapter has its flag set once it has been noted. -/
theorem hasSet_of_noteDialog (hsave : s.save = some m) (hm : Layout.size ≤ m.size)
    (honce : e.oncePerChapter = true) (hinhibited : e.always = false)
    (h : (noteDialog e).run s = (.ok (), t)) :
    ∃ p, (s.uniqueMark e).place = .ok (some p) ∧ t.HasSet p.location := by
  obtain ⟨_, s₁, hdone, h⟩ := Step.run_bind_eq_ok h
  rw [hinhibited, honce, if_neg Bool.false_ne_true, if_pos rfl] at h
  obtain ⟨_, s₂, hunique, hrecent⟩ := Step.run_bind_eq_ok h
  -- The flag of the encounter itself may be any, and leaves the image as long as it was.
  obtain ⟨m₁, hsave₁, hsize₁, hzone₁⟩ :
      ∃ m₁, s₁.save = some m₁ ∧ Layout.size ≤ m₁.size ∧ s₁.zone = s.zone := by
    rcases noteDone_eq_ok hsave hdone with rfl | ⟨-, rfl⟩
    · exact ⟨m, hsave, hm, rfl⟩
    · exact ⟨_, rfl, by rwa [Image.size_withFlag], rfl⟩
  obtain ⟨p, hplace, -, rfl⟩ := noteUnique_eq_ok hsave₁ hunique
  rw [uniqueMark_of_zone hzone₁] at hplace
  have hsize₂ : Layout.size ≤ (m₁.withFlag p true).size := by rwa [Image.size_withFlag]
  have hbit : (m₁.withFlag p true).bit p.location = true := by
    rw [Image.bit_withFlag hsize₁, if_pos rfl]
  refine ⟨p, hplace, ?_⟩
  rcases setMark_eq_ok rfl hrecent with ⟨-, rfl⟩ | ⟨q, -, -, rfl⟩
  · exact ⟨_, rfl, hsize₂, hbit⟩
  · refine ⟨_, rfl, by rwa [Image.size_withFlag], ?_⟩
    rw [Image.bit_withFlag hsize₂]
    split_ifs
    · rfl
    · exact hbit

/-- An encounter that is marked as met in this chapter may not be met. -/
theorem mayMeet_of_hasSet (hplace : (s.uniqueMark e).place = .ok (some p))
    (hs : s.HasSet p.location) : s.mayMeet e = .ok false := by
  obtain ⟨m, hsave, hm, hbit⟩ := hs
  have hseen : s.marked (s.uniqueMark e) = .ok true := by
    rw [marked_of_save hsave, Image.marked_of_place hplace, Image.readFlag_eq hm, hbit]
  -- An encounter that has a flag for the chapter is one of the ten of its tile.
  obtain ⟨_, hunique, -⟩ := Image.place_unique.1 hplace
  obtain ⟨-, hindex, -, -⟩ := Mark.uniquePlace_eq_ok.1 hunique
  have hindex : e.index.toNat < FlagRange.recentEncounter.count := hindex
  obtain ⟨recent, hrecent⟩ : ∃ recent, s.marked (.recent e.index) = .ok recent := by
    have hflag : (Mark.recent e.index).place =
        .ok (some (UInt16.ofNat (FlagRange.recentEncounter.base + e.index.toNat))) := by
      rw [Mark.place, FlagRange.pointer, if_pos hindex]
      rfl
    exact ⟨_, by rw [marked_of_save hsave, Image.marked_of_place hflag, Image.readFlag_eq hm]⟩
  obtain ⟨blocked, hblocked, -⟩ := isBlocked_eq hsave hm e
  rw [mayMeet, hsave, hseen, hrecent, hblocked]
  rfl

/--
Once a dialog that is met once in a chapter has been noted, it may not be met again in its zone.
Whatever is noted of any encounters afterwards, whichever marks are set or cleared, combats fought
or won, tiles and zones left, whenever the game is saved, and whether or not any of this meets a
fault, the answer is no, and it can always be given. The ledger is to fit into its room, as it does
in every session in play (`Reachable.fitsLedger`).
-/
theorem mayMeet_after_noteDialog (hfit : s.FitsLedger) (hsave : s.save = some m)
    (hm : Layout.size ≤ m.size) (honce : e.oncePerChapter = true) (hinhibited : e.always = false)
    (hnote : (noteDialog e).run s = (.ok (), t)) (hrun : Runs Move.GoesAbout t u)
    (hzone : u.zone = s.zone) : u.mayMeet e = .ok false := by
  obtain ⟨p, hplace, hset⟩ := hasSet_of_noteDialog hsave hm honce hinhibited hnote
  have hfit' : t.FitsLedger := by
    have hlead : Leads (fun _ => True) s ((noteDialog e).run s).2 :=
      (obeys_noteDialog (fun _ _ => trivial) s).1
    rw [hnote] at hlead
    exact hlead.fitsLedger hfit
  have hp : p ∈ FlagRange.uniqueEncounter.pointers := by
    have hp := Mark.mem_range hplace
    rwa [uniqueMark, Mark.range] at hp
  have hset' : u.HasSet p.location :=
    hrun.keeps (I := fun s => s.HasSet p.location)
      (fun _ hv _ hd => leavesSet_of_move hv hp hd)
      (fun hd h hs => h.hasSet hd p.le_location hs) hfit' hset
  exact mayMeet_of_hasSet (by rwa [uniqueMark_of_zone hzone]) hset'

/-- A mark that has a flag can be written in an image that reaches to the end of the flags. -/
theorem run_setMark_of_place (hsave : s.save = some m) (hm : Layout.size ≤ m.size)
    (hplace : k.place = .ok (some p)) (on : Bool) :
    (setMark k on).run s = (.ok (), { s with save := some (m.withFlag p on) }) := by
  rw [setMark, run_onSave_some hsave, Image.setMark_of_place hplace, Image.run_setFlag hm]

/-- So can an encounter that has a flag be noted as met. -/
theorem run_noteUnique_of_place (hsave : s.save = some m) (hm : Layout.size ≤ m.size)
    (hplace : (s.uniqueMark e).place = .ok (some p)) :
    (noteUnique e).run s = (.ok (), { s with save := some (m.withFlag p true) }) := by
  rw [noteUnique, Step.run_bind_ok (Step.run_get s)]
  exact run_setMark_of_place hsave hm hplace true

/-- An encounter that is met once in a chapter, whatever flags are set. -/
def wayside (setAfter : EventPtr) (always : Bool) : Encounter :=
  ⟨2, 5, 0, 0, setAfter, true, always⟩

/-- An encounter that needs no flags is not blocked. -/
theorem isBlocked_wayside (s : Session) (setAfter : EventPtr) (always : Bool) :
    s.isBlocked (wayside setAfter always) = .ok false := rfl

/-- In a new game on a blank image it may be met. -/
theorem mayMeet_wayside (setAfter : EventPtr) (always : Bool) :
    onBlank.mayMeet (wayside setAfter always) = .ok true := by
  have hm : Layout.size ≤ (Image.zeroed Layout.size).size := Image.full_zeroed
  have hplace : (onBlank.uniqueMark (wayside setAfter always)).place = .ok (some 0x1c4) := rfl
  have hplace' : (Mark.recent (wayside setAfter always).index).place = .ok (some 0x1452) := rfl
  have hseen : onBlank.marked (onBlank.uniqueMark (wayside setAfter always)) = .ok false := by
    rw [marked_of_save rfl, Image.marked_of_place hplace, Image.readFlag_eq hm, Image.bit_zeroed]
  have hrecent : onBlank.marked (.recent (wayside setAfter always).index) = .ok false := by
    rw [marked_of_save rfl, Image.marked_of_place hplace', Image.readFlag_eq hm, Image.bit_zeroed]
  rw [mayMeet, hseen, hrecent, isBlocked_wayside]
  rfl

/-- A dialog of the first zone may be met, and once it has been, not again after leaving the tile,
fighting a combat, saving, and coming back from the second zone. -/
theorem mayMeet_after_noteDialog_journey :
    ∃ t u, onBlank.FitsLedger ∧ onBlank.mayMeet (wayside 0 false) = .ok true ∧
      (noteDialog (wayside 0 false)).run onBlank = (.ok (), t) ∧ Runs Move.GoesAbout t u ∧
      u.zone = onBlank.zone ∧ u.mayMeet (wayside 0 false) = .ok false := by
  have hm : Layout.size ≤ (Image.zeroed Layout.size).size := Image.full_zeroed
  have hfit : onBlank.FitsLedger := ⟨rfl, Nat.zero_le _⟩
  let m := (Image.zeroed Layout.size).withFlag 0x1c4 true
  let s₁ : Session := { onBlank with save := some m }
  let t : Session := { onBlank with save := some (m.withFlag 0x1452 true) }
  have hunique : (noteUnique (wayside 0 false)).run onBlank = (.ok (), s₁) :=
    run_noteUnique_of_place rfl hm rfl
  have hrecent : (setMark (.recent (wayside 0 false).index) true).run s₁ = (.ok (), t) :=
    run_setMark_of_place rfl (by rwa [Image.size_withFlag]) rfl true
  have hnote : (noteDialog (wayside 0 false)).run onBlank = (.ok (), t) := by
    have hdone : (noteDone (wayside 0 false)).run onBlank = (.ok (), onBlank) := rfl
    have hinhibited : ¬(wayside 0 false).always = true := Bool.false_ne_true
    have honce : (wayside 0 false).oncePerChapter = true := rfl
    rw [noteDialog, Step.run_bind_ok hdone, if_neg hinhibited, if_pos honce,
      Step.run_bind_ok hunique]
    exact hrecent
  let journey : List Move :=
    [.clearTile, .setMark (.combat 7) true, .saveState, .setZone ⟨2⟩, .setZone ⟨1⟩]
  let u := journey.foldl (fun s v => (v.play.run s).2) t
  have hrun : Runs Move.GoesAbout t u :=
    (((((Relation.ReflTransGen.refl.tail ⟨.clearTile, trivial, rfl⟩).tail
      ⟨.setMark (.combat 7) true, fun h => absurd h (by decide), rfl⟩).tail
      ⟨.saveState, trivial, rfl⟩).tail ⟨.setZone ⟨2⟩, trivial, rfl⟩).tail
      ⟨.setZone ⟨1⟩, trivial, rfl⟩)
  have hzone : u.zone = onBlank.zone := rfl
  exact ⟨t, u, hfit, mayMeet_wayside 0 false, hnote, hrun, hzone,
    mayMeet_after_noteDialog hfit rfl hm rfl rfl hnote hrun hzone⟩

/-! ## Always met -/

/-- Between two sessions nothing is noted that would keep an encounter from being met again: its
marks read as before, and if it might be met, then whether it still may is up to the flags that it
names. -/
structure LeavesMarks (e : Encounter) (s t : Session) : Prop where
  unique : t.marked (t.uniqueMark e) = s.marked (s.uniqueMark e)
  recent : t.marked (.recent e.index) = s.marked (.recent e.index)
  mayMeet : s.mayMeet e = .ok true → t.mayMeet e = (!·) <$> t.isBlocked e

/-- An encounter that may be met over an image has neither of its marks set. -/
theorem marked_of_mayMeet (hsave : s.save = some m) (h : s.mayMeet e = .ok true) :
    s.marked (s.uniqueMark e) = .ok false ∧ s.marked (.recent e.index) = .ok false := by
  rw [Session.mayMeet, hsave] at h
  obtain ⟨seen, hseen, h⟩ := Except.bind_eq_ok.1 h
  obtain ⟨recent, hrecent, h⟩ := Except.bind_eq_ok.1 h
  obtain ⟨blocked, -, h⟩ := Except.bind_eq_ok.1 h
  have hfree : (!(seen || recent || blocked)) = true := Except.ok.inj h
  rw [Bool.not_eq_true', Bool.or_eq_false_iff, Bool.or_eq_false_iff] at hfree
  obtain ⟨⟨rfl, rfl⟩, -⟩ := hfree
  exact ⟨hseen, hrecent⟩

/-- If both marks read as before, an encounter that might be met depends on its flags alone. -/
theorem leavesMarks_of_marked (hsave : s.save = some m) (hsave' : t.save = some m')
    (hunique : t.marked (t.uniqueMark e) = s.marked (s.uniqueMark e))
    (hrecent : t.marked (.recent e.index) = s.marked (.recent e.index)) : LeavesMarks e s t := by
  refine ⟨hunique, hrecent, fun hmay => ?_⟩
  obtain ⟨hseen, hnew⟩ := marked_of_mayMeet hsave hmay
  rw [Session.mayMeet, hsave', hunique, hrecent, hseen, hnew]
  rcases t.isBlocked e with _ | blocked
  · rfl
  · rfl

/-- To set the flag of an encounter that has happened leaves every mark with another flag alone. -/
theorem marked_of_noteDone (hsave : s.save = some m) (h : (noteDone e).run s = (.ok (), t)) :
    ∃ m', t.save = some m' ∧ t.zone = s.zone ∧
      ∀ k : Mark, k.place ≠ .ok (some e.setAfter) → t.marked k = s.marked k := by
  rcases noteDone_eq_ok hsave h with rfl | ⟨hlt, rfl⟩
  · exact ⟨m, hsave, rfl, fun _ _ => rfl⟩
  · refine ⟨_, rfl, rfl, fun k hk => ?_⟩
    rw [marked_of_save rfl, marked_of_save hsave, Image.marked_withFlag_of_ne hlt hk]

/--
What is noted of an encounter that may always be met, in a session with an image of any length, if
the flag that it sets is neither of its marks. A dialog or a scene leaves its marks as they were. So
does an encounter that unlocked or closed something, unless it is one of those met once in a
chapter: that one is marked as met, although it may always be met, and only its mark on the tile is
left.
-/
theorem marks_of_always (hsave : s.save = some m) (halways : e.always = true)
    (hunique : (s.uniqueMark e).place ≠ .ok (some e.setAfter))
    (hrecent : (Mark.recent e.index).place ≠ .ok (some e.setAfter)) :
    (∀ note ∈ [noteDialog e, noteScene e], ∀ t, note.run s = (.ok (), t) → LeavesMarks e s t) ∧
      ∀ t, (noteSwitch e).run s = (.ok (), t) →
        (e.oncePerChapter = false → LeavesMarks e s t) ∧
        (e.oncePerChapter = true → t.marked (t.uniqueMark e) = .ok true ∧
          t.marked (.recent e.index) = s.marked (.recent e.index)) := by
  have hdone : ∀ t, (noteDone e).run s = (.ok (), t) → LeavesMarks e s t := fun t h => by
    obtain ⟨m', hsave', hzone, hmarks⟩ := marked_of_noteDone hsave h
    have hmet : t.marked (t.uniqueMark e) = s.marked (s.uniqueMark e) := by
      rw [uniqueMark_of_zone hzone]
      exact hmarks _ hunique
    exact leavesMarks_of_marked hsave hsave' hmet (hmarks _ hrecent)
  have hdialog : noteDialog e = noteDone e := by
    rw [noteDialog, halways, if_pos rfl]
    exact bind_pure _
  refine ⟨fun note hnote t h => ?_, fun t h => ⟨fun honce => ?_, fun honce => ?_⟩⟩
  · rcases List.mem_pair.1 hnote with rfl | rfl
    · exact hdone t (hdialog ▸ h)
    · exact hdone t h
  · rw [noteSwitch, honce, if_neg Bool.false_ne_true] at h
    obtain ⟨_, _, hrun, hrest⟩ := Step.run_bind_eq_ok h
    cases hrest
    exact hdone _ hrun
  · rw [noteSwitch, honce, if_pos rfl] at h
    obtain ⟨_, s₁, hrun, hmark⟩ := Step.run_bind_eq_ok h
    obtain ⟨m₁, hsave₁, hzone, hmarks⟩ := marked_of_noteDone hsave hrun
    obtain ⟨p, hplace, hlt, rfl⟩ := noteUnique_eq_ok hsave₁ hmark
    refine ⟨?_, ?_⟩
    · exact (marked_of_save rfl _).trans (Image.marked_withFlag_self hplace hlt true)
    -- The two marks have flags in different ranges.
    · have hranges : (Mark.recent e.index).range ≠ (s₁.uniqueMark e).range := by
        rw [uniqueMark, Mark.range, Mark.range]
        decide
      have hother : (Mark.recent e.index).place ≠ .ok (some p) := fun heq =>
        FlagRange.location_ne_of_mem (Mark.range_mem_all _) (Mark.range_mem_all _) hranges
          (Mark.mem_range heq) (Mark.mem_range hplace) rfl
      rw [← hmarks _ hrecent, marked_of_save rfl, marked_of_save hsave₁,
        Image.marked_withFlag_of_ne hlt hother]

/-- In a new game a dialog that may always be met, and sets a flag of its own, still may be met once
it has been noted. -/
theorem marks_of_always_dialog :
    (wayside 0x102 true).always = true ∧
      (onBlank.uniqueMark (wayside 0x102 true)).place ≠ .ok (some 0x102) ∧
      (Mark.recent (wayside 0x102 true).index).place ≠ .ok (some 0x102) ∧
      onBlank.mayMeet (wayside 0x102 true) = .ok true ∧
      ∃ t, (noteDialog (wayside 0x102 true)).run onBlank = (.ok (), t) ∧
        LeavesMarks (wayside 0x102 true) onBlank t ∧ t.mayMeet (wayside 0x102 true) = .ok true := by
  let t : Session :=
    { onBlank with save := some ((Image.zeroed Layout.size).withFlag 0x102 true) }
  have hunique : (onBlank.uniqueMark (wayside 0x102 true)).place ≠ .ok (some 0x102) := by decide
  have hrecent : (Mark.recent (wayside 0x102 true).index).place ≠ .ok (some 0x102) := by decide
  have hrun : (noteDialog (wayside 0x102 true)).run onBlank = (.ok (), t) := by
    have hset : (setEvent 0x102 true).run onBlank = (.ok (), t) := by
      rw [setEvent, run_onSave_some rfl, Image.run_setFlag Image.full_zeroed]
    have hdone : (noteDone (wayside 0x102 true)).run onBlank = (.ok (), t) := by
      rw [noteDone, if_neg (by decide)]
      exact hset
    have halways : (wayside 0x102 true).always = true := rfl
    rw [noteDialog, Step.run_bind_ok hdone, if_pos halways, Step.run_pure]
  have hmay := mayMeet_wayside 0x102 true
  have hleaves : LeavesMarks (wayside 0x102 true) onBlank t :=
    (marks_of_always rfl rfl hunique hrecent).1 _ List.mem_cons_self t hrun
  refine ⟨rfl, hunique, hrecent, hmay, t, hrun, hleaves, ?_⟩
  rw [hleaves.mayMeet hmay, isBlocked_wayside]
  rfl

/-- In a new game an encounter that may always be met and unlocks something, but is one of those met
once in a chapter, is marked as met once it has been noted, and may not be met again although no
flag stands in its way. -/
theorem mayMeet_after_noteSwitch :
    (wayside 0 true).always = true ∧
      (onBlank.uniqueMark (wayside 0 true)).place ≠ .ok (some (wayside 0 true).setAfter) ∧
      (Mark.recent (wayside 0 true).index).place ≠ .ok (some (wayside 0 true).setAfter) ∧
      onBlank.mayMeet (wayside 0 true) = .ok true ∧
      onBlank.marked (onBlank.uniqueMark (wayside 0 true)) = .ok false ∧
      ∃ t, (noteSwitch (wayside 0 true)).run onBlank = (.ok (), t) ∧
        t.marked (t.uniqueMark (wayside 0 true)) = .ok true ∧
        t.isBlocked (wayside 0 true) = .ok false ∧ t.mayMeet (wayside 0 true) = .ok false := by
  have hm : Layout.size ≤ (Image.zeroed Layout.size).size := Image.full_zeroed
  have hplace : (onBlank.uniqueMark (wayside 0 true)).place = .ok (some 0x1c4) := rfl
  have hmay := mayMeet_wayside 0 true
  -- All that is noted is the mark of the chapter.
  obtain ⟨t, hrun, hzone, hset⟩ : ∃ t, (noteSwitch (wayside 0 true)).run onBlank = (.ok (), t) ∧
      t.zone = onBlank.zone ∧ t.HasSet (EventPtr.location 0x1c4) := by
    have hdone : (noteDone (wayside 0 true)).run onBlank = (.ok (), onBlank) := rfl
    have honce : (wayside 0 true).oncePerChapter = true := rfl
    refine ⟨{ onBlank with save := some ((Image.zeroed Layout.size).withFlag 0x1c4 true) }, ?_, rfl,
      _, rfl, by rwa [Image.size_withFlag], by rw [Image.bit_withFlag hm, if_pos rfl]⟩
    rw [noteSwitch, Step.run_bind_ok hdone, if_pos honce]
    exact run_noteUnique_of_place rfl hm hplace
  have hplace' : (t.uniqueMark (wayside 0 true)).place = .ok (some 0x1c4) :=
    (congrArg Mark.place (uniqueMark_of_zone hzone)).trans hplace
  have hmet : t.marked (t.uniqueMark (wayside 0 true)) = .ok true := by
    obtain ⟨m, hsave, hsize, hbit⟩ := hset
    rw [marked_of_save hsave, Image.marked_of_place hplace', Image.readFlag_eq hsize, hbit]
  exact ⟨rfl, by decide, by decide, hmay, (marked_of_mayMeet rfl hmay).1, t, hrun, hmet,
    isBlocked_wayside t 0 true, mayMeet_of_hasSet hplace' hset⟩

end Session

end QuestLogic
