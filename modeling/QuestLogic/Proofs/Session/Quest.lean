import QuestLogic.Proofs.Event.Keys
import QuestLogic.Proofs.Session.Encounter

/-!
# Quests won by fighting

A quest lists its combats by number, and their flags once more by pointer. The flags are those by
which the combats are marked as fought (`CombatQuest.fought_eq`), so that the quest of a combat is
won just if all of its combats have been fought (`Session.allSet_fought`), and otherwise nothing is
written. No flag of a combat is the flag of a quest, so what is noted of other combats takes nothing
back, and the order in which the combats of a quest are fought does not matter
(`Session.noteCombat_wins`).
-/

namespace QuestLogic

namespace CombatQuest

/-- The flags that a quest lists are those of its combats. -/
theorem fought_eq : ∀ q ∈ all, q.fought = q.combats.map fun n => (Mark.combat n).flag := by
  decide +kernel

/-- What can be checked of the combats of all quests holds of each of them. -/
theorem forall_of_all {P : CombatQuest → UInt16 → Prop} [∀ q n, Decidable (P q n)]
    (h : (all.all fun q => q.combats.all fun n => P q n) = true) :
    ∀ q ∈ all, ∀ n ∈ q.combats, P q n := by
  simpa only [List.all_eq_true, decide_eq_true_eq] using h

/-- Every combat of a quest has a flag. -/
theorem inRange_of_mem : ∀ q ∈ all, ∀ n ∈ q.combats, (Mark.combat n).InRange :=
  forall_of_all (by decide +kernel)

/-- No combat belongs to two quests. -/
theorem ofCombat?_of_mem : ∀ q ∈ all, ∀ n ∈ q.combats, ofCombat? n = some q :=
  forall_of_all (by decide +kernel)

theorem ofCombat?_eq_none {n : UInt16} (h : ∀ q ∈ all, n ∉ q.combats) : ofCombat? n = none := by
  refine List.find?_eq_none.2 fun q hq hmem => h q hq ?_
  simpa using hmem

/-- The flag of a quest is none of the flags of combats. -/
theorem location_won_ne :
    ∀ q ∈ all, ∀ n ∈ q.combats, ∀ r ∈ all, (Mark.combat n).flag.location ≠ r.won.location :=
  forall_of_all (by decide +kernel)

/-- Neither the flags of combats nor that of the quest is read as the chapter. -/
theorem apart_chapterPointer :
    ∀ q ∈ all, q.won ≠ Session.chapterPointer ∧ Session.chapterPointer ∉ q.fought := by
  decide +kernel

end CombatQuest

namespace Session

variable {s t : Session} {m m' : Image} {q : CombatQuest} {n k : UInt16}

/-! ## One combat -/

/-- Flags are looked at up to the first that is clear. -/
theorem allSet_eq (hsave : s.save = some m) (hm : Layout.size ≤ m.size) {ps : List EventPtr}
    (hps : chapterPointer ∉ ps) : s.allSet ps = .ok (ps.all fun p => m.bit p.location) := by
  induction ps with
  | nil => rfl
  | cons p rest ih =>
    obtain ⟨hp, hrest⟩ := not_or.1 (mt List.mem_cons.2 hps)
    rw [allSet, eventFlag_eq hsave hm (Ne.symm hp), List.all_cons, Except.ok_bind]
    cases m.bit p.location with
    | false => rfl
    | true => exact ih hrest

/-- A combat of a quest is marked as its flag says. -/
theorem marked_combat_eq (hsave : s.save = some m) (hm : Layout.size ≤ m.size)
    (hq : q ∈ CombatQuest.all) (hn : n ∈ q.combats) :
    s.marked (.combat n) = .ok (m.bit (Mark.combat n).flag.location) :=
  (marked_of_save hsave _).trans
    (Image.marked_of_inRange hm (CombatQuest.inRange_of_mem q hq n hn))

/-- All combats of a quest have been fought. -/
def AllFought (s : Session) (q : CombatQuest) : Prop :=
  ∀ k ∈ q.combats, s.marked (.combat k) = .ok true

theorem allSet_fought (hsave : s.save = some m) (hm : Layout.size ≤ m.size)
    (hq : q ∈ CombatQuest.all) :
    ∃ won, s.allSet q.fought = .ok won ∧ (won = true ↔ s.AllFought q) := by
  refine ⟨_, allSet_eq hsave hm (CombatQuest.apart_chapterPointer q hq).2, ?_⟩
  rw [CombatQuest.fought_eq q hq, List.all_map, List.all_eq_true]
  refine forall₂_congr fun k hk => ?_
  rw [marked_combat_eq hsave hm hq hk, Except.ok.injEq]
  rfl

/-- The quest of a combat is won if all of its combats have been fought. -/
theorem run_noteCombat_of_allFought (hsave : s.save = some m) (hm : Layout.size ≤ m.size)
    (hq : q ∈ CombatQuest.all) (hn : n ∈ q.combats) (h : s.AllFought q) :
    (noteCombat n).run s = (.ok (), { s with save := some (m.withFlag q.won true) }) := by
  obtain ⟨won, hset, hwon⟩ := allSet_fought hsave hm hq
  have hview : (Step.view (·.allSet q.fought)).run s = (.ok won, s) := by
    rw [Step.run_view, hset]
  rw [noteCombat, CombatQuest.ofCombat?_of_mem q hq n hn]
  dsimp only
  rw [Step.run_bind_ok hview, if_pos (hwon.2 h), run_setEvent_of_save hsave hm]

/-- If one of them has not been fought, nothing is written. -/
theorem run_noteCombat_of_not_allFought (hsave : s.save = some m) (hm : Layout.size ≤ m.size)
    (hq : q ∈ CombatQuest.all) (hn : n ∈ q.combats) (h : ¬s.AllFought q) :
    (noteCombat n).run s = (.ok (), s) := by
  obtain ⟨won, hset, hwon⟩ := allSet_fought hsave hm hq
  have hview : (Step.view (·.allSet q.fought)).run s = (.ok won, s) := by
    rw [Step.run_view, hset]
  rw [noteCombat, CombatQuest.ofCombat?_of_mem q hq n hn]
  dsimp only
  rw [Step.run_bind_ok hview, if_neg fun hw => h (hwon.1 hw), Step.run_pure]

/-- A combat that belongs to no quest wins none. -/
theorem run_noteCombat_of_not_mem (h : ∀ q ∈ CombatQuest.all, n ∉ q.combats) (s : Session) :
    (noteCombat n).run s = (.ok (), s) := by
  rw [noteCombat, CombatQuest.ofCombat?_eq_none h]
  rfl

/-- The flag of a quest that has been won reads as set. -/
theorem eventFlag_won (hm : Layout.size ≤ m.size) (hq : q ∈ CombatQuest.all) :
    ({ s with save := some (m.withFlag q.won true) } : Session).eventFlag q.won = .ok true := by
  have hsize : Layout.size ≤ (m.withFlag q.won true).size := by rwa [Image.size_withFlag]
  rw [eventFlag_eq rfl hsize (CombatQuest.apart_chapterPointer q hq).1, Image.bit_withFlag hm,
    if_pos rfl]

end Session

/-! ## One combat after the other -/

/-- Something that is noted of a combat. -/
inductive CombatNote where
  /-- It has been fought, or has to be fought once more. -/
  | mark (n : UInt16) (fought : Bool)
  /-- The quest that it belongs to may have been won. -/
  | quest (n : UInt16)

/-- Notes something of a combat. -/
def CombatNote.play : CombatNote → Step Session Unit
  | mark n fought => Session.setMark (.combat n) fought
  | quest n => Session.noteCombat n

/-- Notes one thing after the other. -/
def CombatNote.playAll : List CombatNote → Step Session Unit
  | [] => pure ()
  | note :: rest => do
    note.play
    playAll rest

namespace Session

variable {s t : Session} {m m' : Image} {q : CombatQuest} {n k : UInt16}

/-- A combat of a quest that has been fought stays so unless the note says otherwise, and the note
that says so holds. -/
def KeepsFought (note : CombatNote) (m m' : Image) : Prop :=
  ∀ q ∈ CombatQuest.all, ∀ k ∈ q.combats, note ≠ .mark k false →
    m.bit (Mark.combat k).flag.location = true ∨ note = .mark k true →
    m'.bit (Mark.combat k).flag.location = true

theorem keepsFought_quest (m : Image) (n : UInt16) : KeepsFought (.quest n) m m :=
  fun _ _ _ _ _ h => h.elim id fun hnote => by cases hnote

/-- To win a quest is to write the flag of no combat. -/
theorem keepsFought_won (hm : Layout.size ≤ m.size) (hq : q ∈ CombatQuest.all) (n : UInt16) :
    KeepsFought (.quest n) m (m.withFlag q.won true) := by
  intro r hr k hk hnot h
  rw [Image.bit_withFlag hm, if_neg (CombatQuest.location_won_ne r hr k hk q hq)]
  exact keepsFought_quest m n r hr k hk hnot h

/-- To mark a combat is to write its own flag. -/
theorem keepsFought_mark (hm : Layout.size ≤ m.size) (hn : (Mark.combat n).InRange) (on : Bool) :
    KeepsFought (.mark n on) m (m.withFlag (Mark.combat n).flag on) := by
  intro q hq k hk hnot h
  rw [Image.bit_withFlag hm]
  split_ifs with hsame
  · have hmark := Mark.eq_of_location_flag (CombatQuest.inRange_of_mem q hq k hk) hn hsame
    obtain rfl : k = n := Mark.combat.inj hmark
    cases on with
    | true => rfl
    | false => exact absurd rfl hnot
  · refine h.resolve_right fun hnote => ?_
    cases hnote
    exact hsame rfl

/-- A combat without a flag is in no quest. -/
theorem keepsFought_of_not_inRange (hn : ¬(Mark.combat n).InRange) (on : Bool) (m : Image) :
    KeepsFought (.mark n on) m m := by
  intro q hq k hk _ h
  refine h.resolve_right fun hnote => ?_
  cases hnote
  exact hn (CombatQuest.inRange_of_mem q hq n hk)

/-- What is noted of a combat goes through. -/
theorem run_play_note (hsave : s.save = some m) (hm : Layout.size ≤ m.size) (note : CombatNote) :
    ∃ m', note.play.run s = (.ok (), { s with save := some m' }) ∧ Layout.size ≤ m'.size ∧
      KeepsFought note m m' := by
  have hsame : { s with save := some m } = s := by rw [← hsave]
  cases note with
  | mark n on =>
    rw [CombatNote.play, setMark, run_onSave_some hsave]
    by_cases hn : (Mark.combat n).InRange
    · rw [Image.run_setMark_of_inRange hm hn]
      exact ⟨_, rfl, by rwa [Image.size_withFlag], keepsFought_mark hm hn on⟩
    · have hplace : (Mark.combat n).place = .ok none := if_pos (Nat.le_of_not_lt hn)
      rw [Image.setMark, hplace]
      exact ⟨m, rfl, hm, keepsFought_of_not_inRange hn on m⟩
  | quest n =>
    by_cases hmem : ∃ q ∈ CombatQuest.all, n ∈ q.combats
    · obtain ⟨q, hq, hn⟩ := hmem
      by_cases hfought : s.AllFought q
      · refine ⟨_, run_noteCombat_of_allFought hsave hm hq hn hfought, ?_, ?_⟩
        · rwa [Image.size_withFlag]
        · exact keepsFought_won hm hq n
      · refine ⟨m, ?_, hm, keepsFought_quest m n⟩
        rw [hsame]
        exact run_noteCombat_of_not_allFought hsave hm hq hn hfought
    · refine ⟨m, ?_, hm, keepsFought_quest m n⟩
      rw [hsame]
      exact run_noteCombat_of_not_mem (fun q hq hn => hmem ⟨q, hq, hn⟩) s

/-- Whatever is noted one after the other goes through, and the combats of quests that were marked
as fought and not as to be fought again have been fought in the end. -/
theorem run_playAll_notes (hsave : s.save = some m) (hm : Layout.size ≤ m.size)
    (notes : List CombatNote) :
    ∃ m', (CombatNote.playAll notes).run s = (.ok (), { s with save := some m' }) ∧
      Layout.size ≤ m'.size ∧
      ∀ q ∈ CombatQuest.all, ∀ k ∈ q.combats, .mark k false ∉ notes →
        m.bit (Mark.combat k).flag.location = true ∨ .mark k true ∈ notes →
        m'.bit (Mark.combat k).flag.location = true := by
  induction notes generalizing s m with
  | nil =>
    refine ⟨m, ?_, hm, fun _ _ _ _ _ h => h.resolve_right List.not_mem_nil⟩
    rw [CombatNote.playAll, ← hsave]
    rfl
  | cons note rest ih =>
    obtain ⟨m', hrun, hm', hkeeps⟩ := run_play_note hsave hm note
    obtain ⟨m'', hrest, hm'', hlater⟩ := ih (s := { s with save := some m' }) rfl hm'
    refine ⟨m'', ?_, hm'', fun q hq k hk hnot h => ?_⟩
    · rw [CombatNote.playAll, Step.run_bind_ok hrun, hrest]
    · obtain ⟨hnote, hrestnot⟩ := not_or.1 (mt List.mem_cons.2 hnot)
      refine hlater q hq k hk hrestnot ?_
      rcases h with hbit | hmem
      · exact .inl (hkeeps q hq k hk (Ne.symm hnote) (.inl hbit))
      · rcases List.mem_cons.1 hmem with heq | hmem
        · exact .inl (hkeeps q hq k hk (Ne.symm hnote) (.inr heq.symm))
        · exact .inr hmem

/--
Over an image that reaches to the end of the flags, what is noted of a combat wins its quest if all
combats of the quest have been fought, and otherwise changes nothing; there are two such quests. So
once every combat of a quest has been marked as fought and none as to be fought again, in whatever
order and whatever else is noted of combats in between, each of them wins the quest.
-/
theorem noteCombat_wins (hsave : s.save = some m) (hm : Layout.size ≤ m.size) :
    CombatQuest.all.map (fun q => (q.combats, q.won)) =
      [([131, 132, 133, 134, 135], 0xdb1c), ([610, 613, 615, 618, 619, 621], 0x1d17)] ∧
    (∀ q ∈ CombatQuest.all, ∀ n ∈ q.combats,
      (s.AllFought q → ∃ t, (noteCombat n).run s = (.ok (), t) ∧
        t = { s with save := some (m.withFlag q.won true) } ∧ t.eventFlag q.won = .ok true) ∧
      (¬s.AllFought q → (noteCombat n).run s = (.ok (), s)) ∧
      ∀ notes, (∀ k ∈ q.combats, .mark k true ∈ notes ∧ .mark k false ∉ notes) →
        ∃ t, (CombatNote.playAll notes >>= fun _ => noteCombat n).run s = (.ok (), t) ∧
          t.eventFlag q.won = .ok true) ∧
    ∀ n, (∀ q ∈ CombatQuest.all, n ∉ q.combats) → (noteCombat n).run s = (.ok (), s) := by
  refine ⟨rfl, fun q hq n hn => ⟨fun h => ?_, run_noteCombat_of_not_allFought hsave hm hq hn,
    fun notes hnotes => ?_⟩, fun n hn => run_noteCombat_of_not_mem hn s⟩
  · exact ⟨_, run_noteCombat_of_allFought hsave hm hq hn h, rfl, eventFlag_won hm hq⟩
  · obtain ⟨m', hrun, hm', hfought⟩ := run_playAll_notes hsave hm notes
    have hall : ({ s with save := some m' } : Session).AllFought q := by
      intro k hk
      obtain ⟨hmark, hnot⟩ := hnotes k hk
      rw [marked_combat_eq rfl hm' hq hk, hfought q hq k hk hnot (.inr hmark)]
    refine ⟨_, ?_, eventFlag_won (s := s) hm' hq⟩
    rw [Step.run_bind_ok hrun, run_noteCombat_of_allFought rfl hm' hq hn hall]

/-- The combats of the first quest are fought out of order, with another in between, and the one
that was fought first wins the quest. -/
theorem noteCombat_wins_mixed :
    let notes : List CombatNote := [.mark 135 true, .quest 135, .mark 132 true, .mark 610 true,
      .mark 131 true, .mark 133 true, .quest 133, .mark 610 false, .mark 134 true]
    onBlank.save = some (.zeroed Layout.size) ∧ Layout.size ≤ (Image.zeroed Layout.size).size ∧
      ∃ t, (CombatNote.playAll notes >>= fun _ => noteCombat 135).run onBlank = (.ok (), t) ∧
        t.eventFlag 0xdb1c = .ok true := by
  intro notes
  have hm : Layout.size ≤ (Image.zeroed Layout.size).size := Image.full_zeroed
  obtain ⟨-, hquest, -⟩ := noteCombat_wins (s := onBlank) rfl hm
  let q : CombatQuest :=
    ⟨[131, 132, 133, 134, 135], [0x14e7, 0x14e8, 0x14e9, 0x14ea, 0x14eb], 0xdb1c⟩
  have hq : q ∈ CombatQuest.all := by decide
  obtain ⟨-, -, hwins⟩ := hquest q hq 135 (by decide)
  exact ⟨rfl, hm, hwins notes (by simp [q, notes])⟩

end Session

end QuestLogic
