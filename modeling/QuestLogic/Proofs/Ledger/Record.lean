import QuestLogic.Ledger.Record
import QuestLogic.Proofs.Ledger.Basic
import QuestLogic.Proofs.Save.Words

/-!
# The record of a ledger

`Ledger.bytes` is the record of a ledger: the number of its entries and eight bytes for each.
Storing a ledger writes these bytes (`Ledger.writes_store`), loading an image that has them gives
back the entries (`Ledger.load_of_contains`), and an image from which a ledger is loaded has them
(`Ledger.load_eq_ok`). So the two are inverse to each other, and what stands in an image after
the last entry plays no part (`Ledger.record_inverse`). Which images a ledger can be loaded from at
all is told by the number of entries and by the first byte of each (`Ledger.exists_load_eq_ok`).
-/

namespace QuestLogic

/-- Every kind is found by its code. -/
theorem EffectKind.ofCode?_code (k : EffectKind) : ofCode? k.code = some k := by
  cases k <;> rfl

/-- A kind that is found by a code has that code. -/
theorem EffectKind.code_of_ofCode? {n : UInt8} {k : EffectKind} (h : ofCode? n = some k) :
    k.code = n :=
  of_decide_eq_true (List.find?_some (p := fun k : EffectKind => decide (k.code = n)) h)

/-- The codes of the kinds go up to four. -/
theorem EffectKind.code_le (k : EffectKind) : k.code.toNat ≤ 4 := by
  cases k <;> decide

/-- Every number up to four is the code of a kind. -/
theorem EffectKind.exists_ofCode? {n : UInt8} (h : n.toNat ≤ 4) : ∃ k, ofCode? n = some k := by
  have hn : n = 0 ∨ n = 1 ∨ n = 2 ∨ n = 3 ∨ n = 4 := by
    simp only [← UInt8.toNat_inj, UInt8.reduceToNat]
    omega
  rcases hn with rfl | rfl | rfl | rfl | rfl <;> exact ⟨_, rfl⟩

/-- The record of a timed effect. -/
def Effect.bytes (e : Effect) : List UInt8 :=
  [e.kind.code] ++ ([e.flags] ++ (bytes16 e.subject ++ bytes32 e.duration.ticks))

@[simp] theorem Effect.length_bytes (e : Effect) : e.bytes.length = 8 := rfl

namespace Ledger

/-- The record of a ledger. -/
def bytes (l : Ledger) : List UInt8 :=
  bytes16 (UInt16.ofNat l.entries.length) ++ l.entries.flatMap Effect.bytes

theorem length_bytes (l : Ledger) : l.bytes.length = 2 + 8 * l.entries.length := by
  rw [bytes, List.length_append, length_bytes16, List.length_flatMap,
    List.map_congr_left (g := fun _ => 8) fun e _ => e.length_bytes, List.map_const',
    List.sum_replicate_nat, Nat.mul_comm]

/-! ## Writing -/

theorem entryOffset_succ (index : Nat) : entryOffset (index + 1) = entryOffset index + 8 := by
  rw [entryOffset, entryOffset, Layout.effectLength]
  omega

open Image in
theorem writes_writeEntry (index : Nat) (e : Effect) :
    Writes (writeEntry index e) (entryOffset index) e.bytes :=
  (writes_writeU8 _ _).append ((writes_writeU8 _ _).append
    ((writes_writeU16 _ _).append (writes_writeU32 _ _)))

open Image in
/-- Entries are written one after the other. -/
theorem writes_writeFrom (index : Nat) (es : List Effect) :
    Writes (writeFrom index es) (entryOffset index) (es.flatMap Effect.bytes) := by
  induction es generalizing index with
  | nil => exact .pure _
  | cons e rest ih =>
    refine (writes_writeEntry index e).append ?_
    rw [Effect.length_bytes, ← entryOffset_succ]
    exact ih (index + 1)

open Image in
/-- Storing a ledger writes its record. -/
theorem writes_store (l : Ledger) : Writes l.store Layout.effects l.bytes :=
  (writes_writeU16 _ _).append (writes_writeFrom 0 l.entries)

/-! ## Reading -/

variable {m : Image}

/-- An entry is read where its record is. -/
theorem readEntry_of_contains {index : Nat} {e : Effect}
    (h : m.Contains (entryOffset index) e.bytes) : readEntry m index = .ok e := by
  obtain ⟨hkind, hrest⟩ := Image.contains_append.1 h
  obtain ⟨hflags, hrest⟩ := Image.contains_append.1 hrest
  obtain ⟨hsubject, hduration⟩ := Image.contains_append.1 hrest
  have hflags : m.readU8 (entryOffset index + 1) = .ok e.flags := hflags.readU8
  have hsubject : m.readU16 (entryOffset index + 2) = .ok e.subject := hsubject.readU16
  have hduration : m.readU32 (entryOffset index + 4) = .ok e.duration.ticks := hduration.readU32
  simp only [readEntry, hkind.readU8, Except.ok_bind, EffectKind.ofCode?_code, hflags, hsubject,
    hduration]
  rfl

/-- Entries are read one after the other. -/
theorem mapM_readEntry_of_contains {index : Nat} {es : List Effect}
    (h : m.Contains (entryOffset index) (es.flatMap Effect.bytes)) :
    (List.range' index es.length).mapM (readEntry m) = .ok es := by
  induction es generalizing index with
  | nil => rfl
  | cons e rest ih =>
    obtain ⟨hfirst, hrest⟩ := Image.contains_append.1 h
    rw [Effect.length_bytes, ← entryOffset_succ] at hrest
    rw [List.length_cons, List.range'_succ, List.mapM_cons, readEntry_of_contains hfirst, ih hrest]
    rfl

/-- A ledger is loaded from its record, if there is room for its entries. -/
theorem load_of_contains {l : Ledger} {capacity : Nat} (h : m.Contains Layout.effects l.bytes)
    (hroom : l.entries.length ≤ min capacity maxCapacity) :
    load m capacity = .ok ⟨l.entries, min capacity maxCapacity⟩ := by
  obtain ⟨hcount, hentries⟩ := Image.contains_append.1 h
  -- A count for which there is room is read from its two bytes as it was.
  have hsmall : l.entries.length < UInt16.size :=
    Nat.lt_of_le_of_lt (Nat.le_trans hroom (Nat.min_le_right _ _)) (by decide)
  have hread : (List.range' 0 l.entries.length).mapM (readEntry m) = .ok l.entries :=
    mapM_readEntry_of_contains hentries
  simp only [load, hcount.readU16, Except.ok_bind, UInt16.toNat_ofNat_of_lt' hsmall,
    if_neg (Nat.not_lt.2 hroom), List.range_eq_range', hread]
  rfl

/-! ## What a ledger was loaded from -/

/-- Where an entry is read its record is. -/
theorem contains_of_readEntry {index : Nat} {e : Effect} (h : readEntry m index = .ok e) :
    m.Contains (entryOffset index) e.bytes := by
  obtain ⟨code, hcode, h⟩ := Except.bind_eq_ok.1 h
  rcases hkind : EffectKind.ofCode? code with _ | kind
  · rw [hkind] at h
    cases h
  · rw [hkind] at h
    obtain ⟨flags, hflags, h⟩ := Except.bind_eq_ok.1 h
    obtain ⟨subject, hsubject, h⟩ := Except.bind_eq_ok.1 h
    obtain ⟨ticks, hticks, h⟩ := Except.bind_eq_ok.1 h
    cases h
    have hcode := Image.contains_of_readU8 hcode
    rw [← EffectKind.code_of_ofCode? hkind] at hcode
    have hrest := Image.contains_append.2
      ⟨Image.contains_of_readU16 hsubject, Image.contains_of_readU32 hticks⟩
    exact Image.contains_append.2
      ⟨hcode, Image.contains_append.2 ⟨Image.contains_of_readU8 hflags, hrest⟩⟩

/-- Where entries are read their records are, one after the other. -/
theorem contains_of_mapM_readEntry {index count : Nat} {es : List Effect}
    (h : (List.range' index count).mapM (readEntry m) = .ok es) :
    es.length = count ∧ m.Contains (entryOffset index) (es.flatMap Effect.bytes) := by
  induction count generalizing index es with
  | zero =>
    cases h
    exact ⟨rfl, fun i hi => absurd hi (Nat.not_lt_zero i)⟩
  | succ count ih =>
    rw [List.range'_succ, List.mapM_cons] at h
    obtain ⟨e, hfirst, h⟩ := Except.bind_eq_ok.1 h
    obtain ⟨rest, hrest, h⟩ := Except.bind_eq_ok.1 h
    cases h
    obtain ⟨hlength, hrest⟩ := ih hrest
    refine ⟨congrArg (· + 1) hlength, Image.contains_append.2 ⟨contains_of_readEntry hfirst, ?_⟩⟩
    rwa [Effect.length_bytes, ← entryOffset_succ]

/-- A ledger that is loaded has no more room than it may have, has room for what it holds, and its
record stands in the image. -/
theorem load_eq_ok {l : Ledger} {capacity : Nat} (h : load m capacity = .ok l) :
    l.capacity = min capacity maxCapacity ∧ l.Bounded ∧ m.Contains Layout.effects l.bytes := by
  obtain ⟨count, hcount, h⟩ := Except.bind_eq_ok.1 h
  dsimp only at h
  split_ifs at h with hroom
  · cases h
  · obtain ⟨es, hes, h⟩ := Except.bind_eq_ok.1 h
    cases h
    rw [List.range_eq_range'] at hes
    obtain ⟨hlength, hentries⟩ := contains_of_mapM_readEntry hes
    refine ⟨rfl, ?_, Image.contains_append.2 ⟨?_, hentries⟩⟩
    · rw [Bounded, hlength]
      exact Nat.le_of_not_lt hroom
    · rw [hlength, UInt16.ofNat_toNat]
      exact Image.contains_of_readU16 hcount

/-! ## What can be loaded -/

/-- An entry can be read if its record lies within the image and begins with the code of a kind. -/
def EntryReadable (m : Image) (index : Nat) : Prop :=
  entryOffset index + Layout.effectLength ≤ m.size ∧ (m.byteAt (entryOffset index)).toNat ≤ 4

/-- A ledger can be read if its number of entries can, there is room for as many, and each of them
can be read. -/
def Readable (m : Image) (capacity : Nat) : Prop :=
  ∃ count, m.readU16 Layout.effects = .ok count ∧ count.toNat ≤ min capacity maxCapacity ∧
    ∀ index < count.toNat, EntryReadable m index

theorem exists_readEntry_eq_ok {index : Nat} :
    (∃ e, readEntry m index = .ok e) ↔ EntryReadable m index := by
  constructor
  · rintro ⟨e, he⟩
    have hrecord := contains_of_readEntry he
    obtain ⟨-, hcode⟩ := hrecord 0 (by rw [Effect.length_bytes]; omega)
    refine ⟨hrecord.fits.le (List.cons_ne_nil _ _), ?_⟩
    rw [Nat.add_zero] at hcode
    rw [hcode]
    exact e.kind.code_le
  · rintro ⟨hsize, hcode⟩
    rw [Layout.effectLength] at hsize
    obtain ⟨kind, hkind⟩ := EffectKind.exists_ofCode? hcode
    have hbyte : m.readU8 (entryOffset index) = .ok _ := Image.readU8_of_le (by omega)
    have hflags : m.readU8 (entryOffset index + 1) = .ok _ := Image.readU8_of_le (by omega)
    have hsubject : m.readU16 (entryOffset index + 2) = .ok _ := Image.readU16_of_le (by omega)
    have hticks : m.readU32 (entryOffset index + 4) = .ok _ := Image.readU32_of_le (by omega)
    simp only [readEntry, hbyte, Except.ok_bind, hkind, hflags, hsubject, hticks]
    exact ⟨_, rfl⟩

/-- Loading goes through for the ledgers that can be read, and for no others. -/
theorem exists_load_eq_ok {capacity : Nat} :
    (∃ l, load m capacity = .ok l) ↔ Readable m capacity := by
  have hentries (count : Nat) : (∃ es, (List.range count).mapM (readEntry m) = .ok es) ↔
      ∀ index < count, EntryReadable m index := by
    simp only [Except.exists_mapM_eq_ok, List.mem_range, exists_readEntry_eq_ok]
  constructor
  · rintro ⟨l, h⟩
    obtain ⟨count, hcount, h⟩ := Except.bind_eq_ok.1 h
    dsimp only at h
    split_ifs at h with hroom
    · cases h
    · obtain ⟨es, hes, -⟩ := Except.bind_eq_ok.1 h
      exact ⟨count, hcount, Nat.le_of_not_lt hroom, (hentries _).1 ⟨es, hes⟩⟩
  · rintro ⟨count, hcount, hroom, hall⟩
    obtain ⟨es, hes⟩ := (hentries _).2 hall
    simp only [load, hcount, Except.ok_bind, if_neg (Nat.not_lt.2 hroom), hes]
    exact ⟨_, rfl⟩

/-! ## Storing and loading -/

/-- The record of a ledger fits into an image if its end does. -/
theorem fits_bytes {l : Ledger} :
    m.Fits Layout.effects l.bytes ↔ Layout.effects + 2 + 8 * l.entries.length ≤ m.size := by
  have hne : l.bytes ≠ [] := List.ne_nil_of_length_pos (by rw [length_bytes]; omega)
  rw [Image.Fits, or_iff_right hne, length_bytes, Nat.add_assoc]

/-- A ledger is stored exactly if the image reaches to the end of its record, and whatever has room
for its entries then loads them, in their order. Conversely a ledger that was loaded from an image
is stored there without changing a byte. -/
theorem record_inverse :
    (∀ (l : Ledger) (m : Image) (capacity : Nat), l.entries.length ≤ maxCapacity →
      l.entries.length ≤ capacity →
        ((∃ m', l.store.run m = (.ok (), m')) ↔
          Layout.effects + 2 + 8 * l.entries.length ≤ m.size) ∧
        ∀ m', l.store.run m = (.ok (), m') →
          load m' capacity = .ok ⟨l.entries, min capacity maxCapacity⟩) ∧
    ∀ (m : Image) (capacity : Nat) (l : Ledger), load m capacity = .ok l →
      l.store.run m = (.ok (), m) := by
  refine ⟨fun l m capacity hmax hroom => ⟨?_, fun m' hstore => ?_⟩, fun m capacity l hload => ?_⟩
  · rw [← fits_bytes]
    constructor
    · rintro ⟨m', hstore⟩
      exact ((writes_store l).of_run_ok hstore).1
    · intro hfit
      exact ⟨_, (writes_store l).run_of_fits hfit⟩
  · obtain ⟨hfit, rfl⟩ := (writes_store l).of_run_ok hstore
    exact load_of_contains (Image.contains_putBytes hfit) (Nat.le_min.2 ⟨hroom, hmax⟩)
  · obtain ⟨-, -, hrecord⟩ := load_eq_ok hload
    have hrun := (writes_store l).run_of_fits hrecord.fits
    rwa [hrecord.putBytes_eq] at hrun

/-- A light and a flag to be reset, stored in an image of zeros, load again and are stored again in
the same bytes. -/
theorem record_inverse_light_and_flag :
    ∃ m, (⟨[⟨.light, Effect.extend, 1, ⟨1800⟩⟩, ⟨.resetState, Effect.apart, 7000, ⟨90⟩⟩], 20⟩ :
        Ledger).store.run (.zeroed Layout.size) = (.ok (), m) ∧
      load m 4 =
        .ok ⟨[⟨.light, Effect.extend, 1, ⟨1800⟩⟩, ⟨.resetState, Effect.apart, 7000, ⟨90⟩⟩], 4⟩ ∧
      (⟨[⟨.light, Effect.extend, 1, ⟨1800⟩⟩, ⟨.resetState, Effect.apart, 7000, ⟨90⟩⟩], 4⟩ :
        Ledger).store.run m = (.ok (), m) := by
  have hsize : (Image.zeroed Layout.size).size = Layout.size := by simp [Image.size, Image.zeroed]
  obtain ⟨hstored, hloads⟩ := record_inverse.1
    ⟨[⟨.light, Effect.extend, 1, ⟨1800⟩⟩, ⟨.resetState, Effect.apart, 7000, ⟨90⟩⟩], 20⟩
    (.zeroed Layout.size) 4 (by decide) (by decide)
  obtain ⟨m, hstore⟩ := hstored.2 (by rw [hsize]; decide)
  have hload := hloads m hstore
  exact ⟨m, hstore, hload, record_inverse.2 m 4 _ hload⟩

end Ledger

end QuestLogic
