import QuestLogic.Proofs.Session.Load

/-!
# Which images load

An image loads exactly if its chapter is one of the story and its ledger can be read
(`Image.Loadable`). The other fields need no word of their own: they stand before the ledger, so
that an image that reaches to the ledger has them (`Session.exists_header`). It is for this reason
that loading can put a field in its place before it reads the next, as `Session.loadInTurn` does,
and still leave the session alone whenever it fails (`Session.load_or_refused`).
-/

namespace QuestLogic

/-- The chapter is one of the story, and the ledger can be read. -/
structure Image.Loadable (m : Image) (capacity : Nat) : Prop where
  chapter : ∃ c, m.readU16 Layout.chapter = .ok c ∧ 1 ≤ c.toNat ∧ c.toNat ≤ 9
  ledger : Ledger.Readable m capacity

namespace Session

variable {s t : Session} {m : Image}

/-- An image that reaches to the ledger has every field before it. -/
theorem exists_header {ledger : Ledger} {capacity : Nat} (h : Ledger.load m capacity = .ok ledger) :
    ∃ zone now lastSlept gold, m.readU8 Layout.zone = .ok zone ∧ m.readU32 Layout.time = .ok now ∧
      m.readU32 Layout.lastSlept = .ok lastSlept ∧ m.readU32 Layout.gold = .ok gold := by
  obtain ⟨count, hcount, -⟩ := Except.bind_eq_ok.1 h
  have hsize : Layout.effects + 2 ≤ m.size :=
    (Image.contains_of_readU16 hcount).fits.le (List.cons_ne_nil _ _)
  rw [Layout.effects] at hsize
  refine ⟨_, _, _, _, Image.readU8_of_le ?_, Image.readU32_of_le ?_, Image.readU32_of_le ?_,
    Image.readU32_of_le ?_⟩
  · rw [Layout.zone]; omega
  · rw [Layout.time]; omega
  · rw [Layout.lastSlept]; omega
  · rw [Layout.gold]; omega

/-- A session loads the images that are loadable, and no others. -/
theorem exists_loaded_iff : (∃ t, s.loaded m = .ok t) ↔ m.Loadable s.settings.ledgerCapacity := by
  constructor
  · rintro ⟨t, h⟩
    obtain ⟨chapter, ledger, _, _, _, _, hchapter, hrange, hledger, -⟩ := loaded_eq_ok.1 h
    exact ⟨⟨chapter, hchapter, hrange⟩, Ledger.exists_load_eq_ok.1 ⟨ledger, hledger⟩⟩
  · rintro ⟨⟨chapter, hchapter, hrange⟩, hreadable⟩
    obtain ⟨ledger, hledger⟩ := Ledger.exists_load_eq_ok.2 hreadable
    obtain ⟨zone, now, lastSlept, gold, hzone, hnow, hslept, hgold⟩ := exists_header hledger
    exact ⟨_, loaded_eq_ok.2 ⟨chapter, ledger, zone, now, lastSlept, gold, hchapter, hrange,
      hledger, hzone, hnow, hslept, hgold, rfl⟩⟩

/-! ## Field by field -/

/-- Puts what an image records in place field by field. -/
def takeOnInTurn (m : Image) (chapter : UInt16) (ledger : Ledger) : Step Session Unit := do
  modify fun s => { s with chapter := ⟨chapter.toUInt8⟩ }
  let zone ← .view fun _ => m.readU8 Layout.zone
  modify fun s => { s with zone := ⟨zone⟩ }
  let now ← .view fun _ => m.readU32 Layout.time
  let lastSlept ← .view fun _ => m.readU32 Layout.lastSlept
  modify fun s => { s with clock := ⟨⟨now⟩, ⟨lastSlept⟩⟩ }
  let gold ← .view fun _ => m.readU32 Layout.gold
  modify fun s => { s with party.gold := ⟨gold⟩ }
  modify fun s => { s with spells := spellsOf ledger.entries, ledger, save := some m }
  modify fun s => { s with activeCharacter := s.party.active.head? }
  modify clearDialog

/-- Loads an image field by field: what has been read is in its place before the next is read. -/
def loadInTurn (m : Image) : Step Session Unit := do
  let chapter ← .view fun _ => m.readU16 Layout.chapter
  unless 1 ≤ chapter.toNat && chapter.toNat ≤ 9 do throw (.savedChapter chapter)
  let ledger ← .view fun s => Ledger.load m s.settings.ledgerCapacity
  takeOnInTurn m chapter ledger

/-- Where every field can be read, each comes to its place. -/
theorem run_takeOnInTurn {zone : UInt8} {now lastSlept gold : UInt32} (chapter : UInt16)
    (ledger : Ledger) (hzone : m.readU8 Layout.zone = .ok zone)
    (hnow : m.readU32 Layout.time = .ok now) (hslept : m.readU32 Layout.lastSlept = .ok lastSlept)
    (hgold : m.readU32 Layout.gold = .ok gold) : (takeOnInTurn m chapter ledger).run s =
      (.ok (), s.takeOn m chapter ledger zone now lastSlept gold) := by
  unfold takeOnInTurn
  simp only [Step.run_bind, Step.run_modify, Step.run_view, hzone, hnow, hslept, hgold]
  rfl

/-- Nothing is in its place before what may fail is over: it is as if all were read first. -/
theorem loadInTurn_eq (m : Image) : loadInTurn m = load m := by
  funext s
  change (loadInTurn m).run s = (load m).run s
  -- Up to the ledger both read the same, and neither changes anything.
  rcases hchapter : m.readU16 Layout.chapter with e | chapter
  · have hload : s.loaded m = .error e := by simp only [loaded, hchapter]; rfl
    rw [load, Step.run_update_error hload]
    simp only [loadInTurn, Step.run_bind, Step.run_view, hchapter]
  · by_cases hrange : (1 ≤ chapter.toNat && chapter.toNat ≤ 9) = true
    · rcases hledger : Ledger.load m s.settings.ledgerCapacity with e | ledger
      · have hload : s.loaded m = .error e := by
          simp only [loaded, hchapter, Except.ok_bind, if_pos hrange, hledger]; rfl
        rw [load, Step.run_update_error hload]
        simp only [loadInTurn, Step.run_bind, Step.run_view, hchapter, if_pos hrange, hledger]
      -- Past it nothing can fail any more.
      · obtain ⟨zone, now, lastSlept, gold, hzone, hnow, hslept, hgold⟩ := exists_header hledger
        have hload := loaded_eq_ok.2 ⟨chapter, ledger, zone, now, lastSlept, gold, hchapter,
          by simpa using hrange, hledger, hzone, hnow, hslept, hgold, rfl⟩
        rw [run_load_eq_ok.2 hload]
        simp only [loadInTurn, Step.run_bind, Step.run_view, hchapter, if_pos hrange, hledger]
        exact run_takeOnInTurn chapter ledger hzone hnow hslept hgold
    · have hload : s.loaded m = .error (.savedChapter chapter) := by
        simp only [loaded, hchapter, Except.ok_bind, if_neg hrange]; rfl
      rw [load, Step.run_update_error hload]
      simp only [loadInTurn, Step.run_bind, Step.run_view, hchapter, if_neg hrange, Step.run_throw]

/--
An image loads into a session if its chapter can be read and is one of the story, the number of its
timed effects can be read and there is room for as many, and each of them lies in the image and is
of a known kind. Otherwise loading meets a fault, and although it puts field after field in its
place, the session is then what it was.
-/
theorem load_or_refused (m : Image) : loadInTurn m = load m ∧ ∀ s : Session,
    (m.Loadable s.settings.ledgerCapacity ↔ ∃ t, (load m).run s = (.ok (), t)) ∧
    (¬m.Loadable s.settings.ledgerCapacity ↔ ∃ e, (load m).run s = (.error e, s)) := by
  refine ⟨loadInTurn_eq m, fun s => ?_⟩
  rw [← exists_loaded_iff]
  rcases h : s.loaded m with e | t
  · rw [load, Step.run_update_error h]
    simp
  · rw [load, Step.run_update_ok h]
    simp

/-- The shortest image that loads ends with the number of timed effects; without its last byte it
is refused. -/
theorem load_or_refused_shortest :
    (∃ t, (load ((Image.zeroed (Layout.effects + 2)).put Layout.chapter 1)).run default =
      (.ok (), t)) ∧
    ∃ e, (load ((Image.zeroed (Layout.effects + 1)).put Layout.chapter 1)).run default =
      (.error e, default) := by
  constructor
  · let m := (Image.zeroed (Layout.effects + 2)).put Layout.chapter 1
    have hsize : m.size = Layout.effects + 2 := by simp [m]
    have hlt : Layout.chapter < (Image.zeroed (Layout.effects + 2)).size := by
      rw [Image.size_zeroed]
      decide
    have hbyte : ∀ i, m.byteAt i = if Layout.chapter = i then 1 else 0 := fun i => by
      rw [Image.byteAt_put _ _ _ _ hlt, Image.byteAt_zeroed]
    refine ((load_or_refused m).2 default).1.1 ⟨⟨1, ?_, by decide⟩, 0, ?_, by decide, ?_⟩
    · rw [Image.readU16_of_le (by rw [hsize]; decide), hbyte, hbyte]
      rfl
    · rw [Image.readU16_of_le (Nat.le_of_eq hsize.symm), hbyte, hbyte]
      rfl
    · exact fun _ h => absurd h (Nat.not_lt_zero _)
  · let m := (Image.zeroed (Layout.effects + 1)).put Layout.chapter 1
    refine ((load_or_refused m).2 default).2.1 fun ⟨_, count, hcount, _⟩ => ?_
    have hle := (Image.contains_of_readU16 hcount).fits.le (List.cons_ne_nil _ _)
    rw [Image.size_put, Image.size_zeroed] at hle
    simp at hle

end Session

end QuestLogic
