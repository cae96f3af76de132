import QuestLogic.Proofs.Ledger.Basic
import QuestLogic.Proofs.Ledger.Record
import QuestLogic.Proofs.Session.Change

/-!
# Saving and loading

A session is saved in six fields of its image that do not overlap (`Session.fields`), and loading
reads the same six (`Session.loaded_eq_ok`). So an image that has the fields of a session loads as
that session, provided that its chapter is one of the story and that its ledger has no more entries
than there is room for (`Session.loaded_of_contains`).
-/

namespace QuestLogic

namespace Image

/-- Bytes that neither overlap nor meet. -/
def Apart (a b : Nat × List UInt8) : Prop := a.1 + a.2.length ≤ b.1 ∨ b.1 + b.2.length ≤ a.1

/-- The image with several rows of bytes laid down, each from its own offset. -/
def putAll (m : Image) : List (Nat × List UInt8) → Image
  | [] => m
  | w :: rest => (m.putBytes w.1 w.2).putAll rest

variable {m : Image} {ws : List (Nat × List UInt8)}

@[simp] theorem size_putAll (m : Image) (ws : List (Nat × List UInt8)) :
    (m.putAll ws).size = m.size := by
  induction ws generalizing m with
  | nil => rfl
  | cons w rest ih => rw [putAll, ih, size_putBytes]

/-- Bytes stay where they are while rows are laid down elsewhere. -/
theorem Contains.putAll {offset : Nat} {bs : List UInt8} (h : m.Contains offset bs)
    (hapart : ∀ w ∈ ws, Apart (offset, bs) w) : (m.putAll ws).Contains offset bs := by
  induction ws generalizing m with
  | nil => exact h
  | cons w rest ih =>
    refine ih (h.putBytes (hapart w List.mem_cons_self).symm) ?_
    exact fun w' hw' => hapart w' (List.mem_cons_of_mem w hw')

/-- Rows of bytes that do not overlap are all there once they are laid down. -/
theorem contains_putAll (hfit : ∀ w ∈ ws, m.Fits w.1 w.2) (hapart : ws.Pairwise Apart) :
    ∀ w ∈ ws, (m.putAll ws).Contains w.1 w.2 := by
  -- A row is there once it is laid down, and stays there while the others are.
  induction hapart generalizing m with
  | nil => exact fun _ h => absurd h List.not_mem_nil
  | @cons w rest hw _ ih =>
    have hrest : ∀ w' ∈ rest, (m.putBytes w.1 w.2).Fits w'.1 w'.2 := fun w' hw' =>
      fits_putBytes.2 (hfit w' (List.mem_cons_of_mem w hw'))
    intro w' hw'
    rcases List.mem_cons.1 hw' with rfl | hw'
    · exact (contains_putBytes (hfit w' List.mem_cons_self)).putAll hw
    · exact ih hrest w' hw'

end Image

namespace Session

variable {s t : Session} {m : Image}

/-! ## Loading -/

/-- The session that takes on what an image records. -/
def takeOn (s : Session) (m : Image) (chapter : UInt16) (ledger : Ledger) (zone : UInt8)
    (now lastSlept gold : UInt32) : Session :=
  { s with
    chapter := ⟨chapter.toUInt8⟩, zone := ⟨zone⟩, clock := ⟨⟨now⟩, ⟨lastSlept⟩⟩,
    party.gold := ⟨gold⟩, spells := spellsOf ledger.entries, ledger, save := some m,
    activeCharacter := s.party.active.head? }.clearDialog

/-- What loading reads, and what it makes of it. -/
theorem loaded_eq_ok : s.loaded m = .ok t ↔
    ∃ chapter ledger zone now lastSlept gold,
      m.readU16 Layout.chapter = .ok chapter ∧ (1 ≤ chapter.toNat ∧ chapter.toNat ≤ 9) ∧
      Ledger.load m s.settings.ledgerCapacity = .ok ledger ∧ m.readU8 Layout.zone = .ok zone ∧
      m.readU32 Layout.time = .ok now ∧ m.readU32 Layout.lastSlept = .ok lastSlept ∧
      m.readU32 Layout.gold = .ok gold ∧ t = s.takeOn m chapter ledger zone now lastSlept gold := by
  constructor
  -- Loading stops at the first thing that it cannot read, so that it has read every one.
  · intro h
    obtain ⟨chapter, hchapter, h⟩ := Except.bind_eq_ok.1 h
    split_ifs at h with hrange
    · obtain ⟨ledger, hledger, h⟩ := Except.bind_eq_ok.1 h
      obtain ⟨zone, hzone, h⟩ := Except.bind_eq_ok.1 h
      obtain ⟨now, hnow, h⟩ := Except.bind_eq_ok.1 h
      obtain ⟨lastSlept, hslept, h⟩ := Except.bind_eq_ok.1 h
      obtain ⟨gold, hgold, h⟩ := Except.bind_eq_ok.1 h
      cases h
      rw [Bool.and_eq_true, decide_eq_true_eq, decide_eq_true_eq] at hrange
      exact ⟨chapter, ledger, zone, now, lastSlept, gold, hchapter, hrange, hledger, hzone, hnow,
        hslept, hgold, rfl⟩
    · cases h
  · rintro ⟨chapter, ledger, zone, now, lastSlept, gold, hchapter, hrange, hledger, hzone, hnow,
      hslept, hgold, rfl⟩
    have hrange' : (decide (1 ≤ chapter.toNat) && decide (chapter.toNat ≤ 9)) = true := by
      simpa using hrange
    simp only [loaded, hchapter, Except.ok_bind, if_pos hrange', hledger, hzone, hnow, hslept,
      hgold]
    rfl

/-! ## Saving -/

/-- What is saved of a session, and where. -/
def fields (s : Session) : List (Nat × List UInt8) :=
  [(Layout.chapter, bytes16 s.chapter.val.toUInt16), (Layout.zone, [s.zone.val]),
    (Layout.gold, bytes32 s.party.gold.val), (Layout.time, bytes32 s.clock.now.ticks),
    (Layout.lastSlept, bytes32 s.clock.lastSlept.ticks), (Layout.effects, s.ledger.bytes)]

/-- What is saved does not overlap. -/
theorem pairwise_apart_fields (s : Session) : s.fields.Pairwise Image.Apart := by
  unfold fields
  simp only [List.pairwise_cons, List.mem_cons, List.not_mem_nil, or_false, Image.Apart,
    Layout.chapter, Layout.zone, Layout.gold, Layout.time, Layout.lastSlept, Layout.effects,
    length_bytes16, length_bytes32, List.length_cons, List.length_nil]
  simp

/-- The writes that saving makes. -/
def writeFields (s : Session) : Step Image Unit := do
  Image.writeU16 Layout.chapter s.chapter.val.toUInt16
  Image.writeU8 Layout.zone s.zone.val
  Image.writeU32 Layout.gold s.party.gold.val
  Image.writeU32 Layout.time s.clock.now.ticks
  Image.writeU32 Layout.lastSlept s.clock.lastSlept.ticks
  s.ledger.store

open Image in
/-- The writes of saving go through if every field fits. -/
theorem writeFields_eq_ok {m' : Image} (h : (writeFields s).run m = (.ok (), m')) :
    (∀ w ∈ s.fields, m.Fits w.1 w.2) ∧ m' = m.putAll s.fields := by
  obtain ⟨hchapter, h⟩ := (writes_writeU16 _ _).of_run_bind_ok h
  obtain ⟨hzone, h⟩ := (writes_writeU8 _ _).of_run_bind_ok h
  obtain ⟨hgold, h⟩ := (writes_writeU32 _ _).of_run_bind_ok h
  obtain ⟨htime, h⟩ := (writes_writeU32 _ _).of_run_bind_ok h
  obtain ⟨hslept, h⟩ := (writes_writeU32 _ _).of_run_bind_ok h
  obtain ⟨hledger, h⟩ := (Ledger.writes_store s.ledger).of_run_ok h
  refine ⟨?_, h⟩
  simp only [fits_putBytes] at hzone hgold htime hslept hledger
  unfold fields
  simp only [List.forall_mem_cons]
  exact ⟨hchapter, hzone, hgold, htime, hslept, hledger, fun _ h => absurd h List.not_mem_nil⟩

open Image in
/-- The writes of saving go through where every field fits. -/
theorem run_writeFields (hfit : ∀ w ∈ s.fields, m.Fits w.1 w.2) :
    (writeFields s).run m = (.ok (), m.putAll s.fields) := by
  unfold fields at hfit
  simp only [List.forall_mem_cons] at hfit
  obtain ⟨h1, h2, h3, h4, h5, h6, -⟩ := hfit
  -- A field still fits after those before it, since laying bytes down changes no size.
  unfold writeFields
  rw [Step.run_bind_ok ((writes_writeU16 _ _).run_of_fits h1),
    Step.run_bind_ok ((writes_writeU8 _ _).run_of_fits (by simpa only [fits_putBytes] using h2)),
    Step.run_bind_ok ((writes_writeU32 _ _).run_of_fits (by simpa only [fits_putBytes] using h3)),
    Step.run_bind_ok ((writes_writeU32 _ _).run_of_fits (by simpa only [fits_putBytes] using h4)),
    Step.run_bind_ok ((writes_writeU32 _ _).run_of_fits (by simpa only [fits_putBytes] using h5)),
    (Ledger.writes_store s.ledger).run_of_fits (by simpa only [fits_putBytes] using h6)]
  rfl

/-- Every field fits into an image that reaches to the end of the flags, if the ledger fits into
its own. -/
theorem fits_fields (hm : Layout.size ≤ m.size)
    (hroom : s.ledger.entries.length ≤ Ledger.maxCapacity) :
    ∀ w ∈ s.fields, m.Fits w.1 w.2 := by
  rw [Layout.size] at hm
  rw [Ledger.maxCapacity] at hroom
  unfold fields
  simp only [List.forall_mem_cons, Image.Fits, Ledger.length_bytes, length_bytes16, length_bytes32,
    List.length_cons, List.length_nil, Layout.chapter, Layout.zone, Layout.gold, Layout.time,
    Layout.lastSlept, Layout.effects]
  refine ⟨.inr ?_, .inr ?_, .inr ?_, .inr ?_, .inr ?_, .inr ?_,
    fun _ h => absurd h List.not_mem_nil⟩
  all_goals omega

/-- Saving writes the fields, if there is an image. -/
theorem run_saveState (hs : s.save = some m) : saveState.run s =
    (((writeFields s).run m).1, { s with save := some ((writeFields s).run m).2 }) := by
  have hsome : ¬s.save.isNone = true := by simp [hs]
  unfold saveState
  rw [Step.run_bind_ok (Step.run_get s), if_neg hsome, run_onSave_some hs]
  rfl

/-- Saving lays the fields down in the image, all of which fit. -/
theorem saveState_eq_ok (h : saveState.run s = (.ok (), t)) :
    ∃ m, s.save = some m ∧ (∀ w ∈ s.fields, m.Fits w.1 w.2) ∧
      t = { s with save := some (m.putAll s.fields) } := by
  rcases hs : s.save with _ | m
  · unfold saveState at h
    rw [Step.run_bind_ok (Step.run_get s), hs] at h
    cases h
  · rcases hrun : (writeFields s).run m with ⟨r, m'⟩
    rw [run_saveState hs, hrun] at h
    cases h
    obtain ⟨hfit, hput⟩ := writeFields_eq_ok hrun
    refine ⟨m, rfl, hfit, ?_⟩
    dsimp only
    rw [hput]

/-- The writes that saving is made of: the six fields, the last of which has room for a full
ledger. -/
inductive OfSave : Image.Deed → Prop
  | chapter {d : Image.Deed} (h : d.OfField Layout.chapter 2) : OfSave d
  | zone {d : Image.Deed} (h : d.OfField Layout.zone 1) : OfSave d
  | gold {d : Image.Deed} (h : d.OfField Layout.gold 4) : OfSave d
  | time {d : Image.Deed} (h : d.OfField Layout.time 4) : OfSave d
  | lastSlept {d : Image.Deed} (h : d.OfField Layout.lastSlept 4) : OfSave d
  | effects {d : Image.Deed} (h : d.OfField Layout.effects (2 + 8 * Ledger.maxCapacity)) : OfSave d

/-- All that saving writes stands before the purses that are set aside. -/
theorem OfSave.exists_field {w : Image.Deed} (hw : OfSave w) :
    ∃ offset width, w.OfField offset width ∧ offset + width ≤ Layout.stash := by
  cases hw with
  | chapter h | zone h | gold h | time h | lastSlept h | effects h => exact ⟨_, _, h, by decide⟩

open Image in
/-- The writes of saving stay within the fields, as long as the ledger has room in its own. -/
theorem obeys_writeFields {K : Image.Deed → Prop} (hK : ∀ d, OfSave d → K d)
    (hroom : s.ledger.entries.length ≤ Ledger.maxCapacity) :
    (Image.rule K).Obeys (writeFields s) := by
  have hbytes : s.ledger.bytes.length ≤ 2 + 8 * Ledger.maxCapacity := by
    rw [Ledger.length_bytes]
    omega
  refine ((writes_writeU16 _ _).obeys (Nat.le_refl 2) (by decide) fun d hd =>
    hK d (.chapter hd)).bind fun _ => ?_
  refine ((writes_writeU8 _ _).obeys (Nat.le_refl 1) (by decide) fun d hd =>
    hK d (.zone hd)).bind fun _ => ?_
  refine ((writes_writeU32 _ _).obeys (Nat.le_refl 4) (by decide) fun d hd =>
    hK d (.gold hd)).bind fun _ => ?_
  refine ((writes_writeU32 _ _).obeys (Nat.le_refl 4) (by decide) fun d hd =>
    hK d (.time hd)).bind fun _ => ?_
  refine ((writes_writeU32 _ _).obeys (Nat.le_refl 4) (by decide) fun d hd =>
    hK d (.lastSlept hd)).bind fun _ => ?_
  exact (Ledger.writes_store s.ledger).obeys hbytes (by decide) fun d hd => hK d (.effects hd)

/-- Saving stays within the fields, as long as the ledger has room in its own. -/
theorem holds_saveState {K : Deed → Prop} (hK : ∀ d, OfSave d → K (.image d))
    (hroom : s.ledger.entries.length ≤ Ledger.maxCapacity) : (rule K).Holds saveState s := by
  refine Rule.holds_get_bind ?_
  -- Without an image there is nowhere to save to, which is no fault of an image.
  split_ifs
  · exact Rule.holds_bind (Rule.holds_throw fun h => by cases h) fun _ _ h => by cases h
  · exact obeys_onSave (obeys_writeFields hK hroom) s

open Image in
/-- An image that has the fields of a session loads as that session, whatever was there before. -/
theorem loaded_of_contains (hm : ∀ w ∈ s.fields, m.Contains w.1 w.2)
    (hchapter : 1 ≤ s.chapter.val.toNat ∧ s.chapter.val.toNat ≤ 9)
    (hroom : s.ledger.entries.length ≤ min t.settings.ledgerCapacity Ledger.maxCapacity) :
    ∃ u, t.loaded m = .ok u ∧ u.save = some m ∧ u.chapter = s.chapter ∧ u.zone = s.zone ∧
      u.party.gold = s.party.gold ∧ u.clock = s.clock ∧ u.ledger.entries = s.ledger.entries := by
  unfold fields at hm
  simp only [List.forall_mem_cons] at hm
  obtain ⟨h1, h2, h3, h4, h5, h6, -⟩ := hm
  have hload := loaded_eq_ok.2 ⟨_, _, _, _, _, _, h1.readU16, hchapter,
    Ledger.load_of_contains h6 hroom, h2.readU8, h4.readU32, h5.readU32, h3.readU32, rfl⟩
  refine ⟨_, hload, rfl, ?_, rfl, rfl, rfl, rfl⟩
  exact congrArg Chapter.mk (UInt8.toUInt8_toUInt16 s.chapter.val)

end Session

end QuestLogic
