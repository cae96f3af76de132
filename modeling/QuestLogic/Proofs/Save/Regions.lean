import QuestLogic.Proofs.Event.ReadWrite
import QuestLogic.Proofs.Save.Stash

/-!
# Regions of a save image

The flags stand past everything else, from `Layout.simpleEvents` on. So a write of flags leaves
every byte before them alone (`Image.Change.byteAt_of_flags`), and what is read at a number is told
by the bytes from there on (`Image.readEvent_congr`). A purse that is set aside takes four bytes
before them (`Image.run_setStash`).
-/

namespace QuestLogic

/-- No number names a byte before the flags. -/
theorem EventPtr.le_byte (p : EventPtr) : Layout.simpleEvents ≤ p.resolve.byte := by
  by_cases h : p < complexBase
  · rw [resolve_of_lt h, EventAddress.byte]
    exact Nat.le_add_right _ _
  · rw [resolve_of_not_lt h, Layout.simpleEvents]
    split_ifs
    all_goals
      rw [EventAddress.byte]
      omega

namespace Image

variable {m m' : Image} {d : Deed} {i : Nat}

/-! ## Writes of flags -/

/-- The write sets flags. -/
def Deed.WritesFlags : Deed → Prop
  | .flag _ _ | .byte _ => True
  | .word _ _ => False

theorem Deed.WritesFlags.sparesStash (hd : d.WritesFlags) : d.SparesStash := by
  cases d with
  | word => exact hd.elim
  | _ => trivial

theorem Deed.OfMark.writesFlags {k : Mark} {on : Bool} (h : d.OfMark k on) : d.WritesFlags := by
  cases h
  trivial

theorem Deed.OfWrite.writesFlags {w : FlagWrite} (h : d.OfWrite w) : d.WritesFlags := by
  cases h
  all_goals trivial

theorem Deed.Clears.writesFlags {ps : List EventPtr} (h : d.Clears ps) : d.WritesFlags := by
  cases h
  trivial

/-- To write flags leaves the bytes before them alone. -/
theorem Change.byteAt_of_flags (h : Change d m m') (hd : d.WritesFlags)
    (hi : i < Layout.simpleEvents) : m'.byteAt i = m.byteAt i := by
  cases h with
  | @flag _ p on _ =>
    have hflag := p.le_location
    exact byteAt_put_of_ne m _ (by omega)
  | byte hp _ =>
    have hbyte := EventPtr.le_of_resolve_complexByte hp
    exact byteAt_put_of_ne m _ (by omega)
  | word => exact hd.elim

/-! ## What is read where -/

theorem readU8_congr {offset : Nat} (hsize : m'.size = m.size)
    (h : m'.byteAt offset = m.byteAt offset) : m'.readU8 offset = m.readU8 offset := by
  rw [readU8, readU8, check, check, hsize, h]

theorem readU16_congr {offset : Nat} (hsize : m'.size = m.size)
    (h : m'.byteAt offset = m.byteAt offset) (h' : m'.byteAt (offset + 1) = m.byteAt (offset + 1)) :
    m'.readU16 offset = m.readU16 offset := by
  rw [readU16, readU16, check, check, hsize, h, h']

/-- What is read at a number is told by the bytes past the purses. -/
theorem readEvent_congr (hsize : m'.size = m.size)
    (h : ∀ i, Layout.simpleEvents ≤ i → m'.byteAt i = m.byteAt i) (p : EventPtr) :
    m'.readEvent p = m.readEvent p := by
  have hbyte : ∀ i, Layout.simpleEvents ≤ i → m'.readU8 i = m.readU8 i := fun i hi =>
    readU8_congr hsize (h i hi)
  have hword : ∀ i, Layout.simpleEvents ≤ i → m'.readU16 i = m.readU16 i := fun i hi =>
    readU16_congr hsize (h i hi) (h (i + 1) (Nat.le_succ_of_le hi))
  have hle := p.le_byte
  unfold readEvent
  generalize p.resolve = a at hle
  split
  all_goals rw [EventAddress.byte] at hle
  · rw [hbyte _ hle]
  · rw [hbyte _ hle]
  · rw [hbyte _ hle]
  · rw [hword _ hle]

theorem readFlag_congr (hsize : m'.size = m.size)
    (h : ∀ i, Layout.simpleEvents ≤ i → m'.byteAt i = m.byteAt i) (p : EventPtr) :
    m'.readFlag p = m.readFlag p := by
  rw [readFlag, readFlag, readEvent_congr hsize h]

/-! ## Purses -/

/-- A chapter of the story sets its purse aside in four bytes of its own. -/
theorem run_setStash (hm : Layout.size ≤ m.size) {c : Chapter} (hc : c.inStory = true)
    (gold : Royals) : ∃ m', (setStash c gold).run m = (.ok (), m') ∧ m'.size = m.size ∧
      ∀ i, (i < Layout.stash + (c.val.toNat - 1) * 4 ∨
        Layout.stash + (c.val.toNat - 1) * 4 + 4 ≤ i) → m'.byteAt i = m.byteAt i := by
  have hoffset : stashOffset c = .ok (Layout.stash + (c.val.toNat - 1) * 4) := if_pos hc
  have hend := stashOffset_le hoffset
  have hfit : m.Fits (Layout.stash + (c.val.toNat - 1) * 4) (bytes32 gold.val) :=
    .inr (Nat.le_trans hend hm)
  refine ⟨m.putBytes _ (bytes32 gold.val), ?_, size_putBytes m _ _,
    fun i hi => byteAt_putBytes_of_disjoint hi⟩
  rw [setStash, hoffset]
  exact (writes_writeU32 _ _).run_of_fits hfit

end Image

end QuestLogic
