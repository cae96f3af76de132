import Mathlib.Logic.Relation
import QuestLogic.Proofs.Event.Mark
import QuestLogic.Save.Stash

/-!
# What play writes to a save image

Whatever is written to a save image is a flag, a whole byte of flags, or a word at a place of its
own (`Image.Deed`). `Image.rule` says of a step which of these it may make, that it makes no other
change, and that a fault of the image only meets it where the image ends before the flags do.
-/

namespace QuestLogic.Image

open Relation (ReflTransGen)

/-- A write to an image. -/
inductive Deed where
  | flag (p : EventPtr) (on : Bool)
  /-- A whole byte of the complex record. -/
  | byte (w : FlagWrite)
  /-- Bytes laid down from an offset. -/
  | word (offset : Nat) (bs : List UInt8)

namespace Deed

/-- The writes that a flag write may come to. -/
inductive OfWrite (w : FlagWrite) : Deed → Prop
  | byte : OfWrite w (.byte w)
  | flag {p : EventPtr} (h : p ∈ w.pointers) : OfWrite w (.flag p (w.value ≠ 0))

/-- The write that sets or clears a mark, if it has a flag. -/
inductive OfMark (k : Mark) (on : Bool) : Deed → Prop
  | flag {p : EventPtr} (h : k.place = .ok (some p)) : OfMark k on (.flag p on)

/-- Clearing one of some flags. -/
inductive Clears (ps : List EventPtr) : Deed → Prop
  | flag {p : EventPtr} (h : p ∈ ps) : Clears ps (.flag p false)

/-- Bytes laid down in a field. -/
inductive OfField (offset width : Nat) : Deed → Prop
  | word {bs : List UInt8} (h : bs.length ≤ width) : OfField offset width (.word offset bs)

end Deed

/-- What a write makes of an image. -/
inductive Change : Deed → Image → Image → Prop
  | flag {m : Image} {p : EventPtr} (on : Bool) (h : p.location.1 < m.size) :
    Change (.flag p on) m (m.withFlag p on)
  | byte {m : Image} {w : FlagWrite} {byte : Nat} (hp : w.pointer.resolve = .complexByte byte)
    (h : byte < m.size) : Change (.byte w) m (m.put byte (w.update (m.byteAt byte)))
  | word (m : Image) (offset : Nat) (bs : List UInt8) :
    Change (.word offset bs) m (m.putBytes offset bs)

/-- One image comes from another by the writes that `K` allows. -/
def Leads (K : Deed → Prop) : Image → Image → Prop :=
  ReflTransGen fun m m' => ∃ d, K d ∧ Change d m m'

variable {K : Deed → Prop} {m m' : Image} {d : Deed}

/-- No write changes the size. -/
theorem Change.size_eq (h : Change d m m') : m'.size = m.size := by
  cases h with
  | flag on h => exact size_withFlag m _ on
  | byte hp h => exact size_put m _ _
  | word => exact size_putBytes m _ _

theorem Leads.refl (m : Image) : Leads K m m := ReflTransGen.refl

theorem Leads.trans {m₁ m₂ m₃ : Image} (h : Leads K m₁ m₂) (h' : Leads K m₂ m₃) : Leads K m₁ m₃ :=
  ReflTransGen.trans h h'

theorem Change.leads (h : Change d m m') (hK : K d) : Leads K m m' :=
  ReflTransGen.single ⟨d, hK, h⟩

/-- Only the writes that `K` allows are made, and an image that reaches to the end of the flags is
never to blame for a fault. -/
def rule (K : Deed → Prop) : Rule Image where
  leads := Leads K
  permits e m := e.isCorruption = true → m.size < Layout.size
  refl := .refl
  trans := .trans

/-- To meet a fault that is none of the image is within the rule. -/
theorem obeys_throw {e : Fault} (he : e.isCorruption = false) :
    (rule K).Obeys (throw e : Step Image Unit) :=
  fun m => Rule.holds_throw fun hcorrupt => by
    rw [he] at hcorrupt
    cases hcorrupt

/-! ## Flags -/

/-- To rewrite a byte below the end of the flags is within the rule if the write is. -/
theorem obeys_putByte {byte : Nat} {f : UInt8 → UInt8} (hend : byte < Layout.size)
    (hchange : ∀ m : Image, byte < m.size → Change d m (m.put byte (f (m.byteAt byte))))
    (hK : K d) : (rule K).Obeys (.update fun m => return m.put byte (f (← m.readU8 byte))) := by
  refine Rule.obeys_update (fun m m' h => ?_) fun m e h _ => ?_
  -- All that can go wrong is that the byte lies past the end of the image.
  all_goals
    by_cases hm : byte + 1 ≤ m.size
  · rw [readU8_of_le hm] at h
    cases h
    exact (hchange m hm).leads hK
  · rw [readU8, check_of_lt (Nat.lt_of_not_le hm)] at h
    cases h
  · rw [readU8_of_le hm] at h
    cases h
  · exact Nat.lt_of_le_of_lt (Nat.lt_succ_iff.1 (Nat.lt_of_not_le hm)) hend

theorem obeys_setFlag {p : EventPtr} {on : Bool} (hK : K (.flag p on)) :
    (rule K).Obeys (setFlag p on) :=
  obeys_putByte (Nat.lt_of_succ_lt p.location_lt) (fun _ hm => .flag on hm) hK

theorem obeys_setFlags {ps : List EventPtr} {on : Bool} (hK : ∀ p ∈ ps, K (.flag p on)) :
    (rule K).Obeys (setFlags on ps) := by
  induction ps with
  | nil => exact Rule.obeys_pure _
  | cons p rest ih =>
    exact (obeys_setFlag (hK p (List.mem_cons_self))).bind fun _ =>
      ih fun q hq => hK q (List.mem_cons_of_mem p hq)

theorem obeys_applyWrite {w : FlagWrite} (hK : ∀ d, Deed.OfWrite w d → K d) :
    (rule K).Obeys (applyWrite w) := by
  unfold applyWrite
  split
  · rename_i byte hbyte
    exact obeys_putByte (Nat.lt_of_succ_lt (EventPtr.lt_of_resolve_complexByte hbyte))
      (fun _ hm => .byte hbyte hm) (hK _ .byte)
  · exact obeys_setFlags fun p hp => hK _ (.flag hp)

theorem obeys_setMark {k : Mark} {on : Bool} (hK : ∀ d, Deed.OfMark k on d → K d) :
    (rule K).Obeys (setMark k on) := by
  unfold setMark
  split
  · rename_i p hp
    exact obeys_setFlag (hK _ (.flag hp))
  · exact Rule.obeys_pure _
  · rename_i e he
    exact obeys_throw (Mark.place_error he)

theorem obeys_clearUnique (hK : ∀ d, Deed.Clears FlagRange.uniqueEncounter.pointers d → K d) :
    (rule K).Obeys clearUnique :=
  obeys_setFlags fun _ hp => hK _ (.flag hp)

theorem obeys_clearTile
    (hK : ∀ d, Deed.Clears
      (FlagRange.recentEncounter.pointers ++ FlagRange.combatScouted.pointers) d → K d) :
    (rule K).Obeys clearTile :=
  obeys_setFlags fun _ hp => hK _ (.flag hp)

/-- The flags of a character that are cleared are among those of all characters. -/
theorem obeys_clearUnseen {c : CharId}
    (hK : ∀ d, Deed.Clears FlagRange.skillImprovement.pointers d → K d) :
    (rule K).Obeys (clearUnseen c) := by
  unfold clearUnseen
  induction List.range FlagRange.perCharacter with
  | nil => exact Rule.obeys_pure _
  | cons slot rest ih =>
    rw [List.forM]
    refine Rule.Obeys.bind ?_ fun _ => ih
    split
    · rename_i p hp
      exact obeys_setFlag (hK _ (.flag (FlagRange.mem_pointers hp)))
    · rename_i e he
      exact obeys_throw (FlagRange.pointer_error he)

/-! ## Words -/

/-- A step that lays bytes down is within the rule if they lie below the end of the flags. -/
theorem Writes.obeys {x : Step Image Unit} {offset width : Nat} {bs : List UInt8}
    (hx : Writes x offset bs) (hwidth : bs.length ≤ width) (hend : offset + width ≤ Layout.size)
    (hK : ∀ d, Deed.OfField offset width d → K d) : (rule K).Obeys x := by
  intro m
  by_cases hfit : m.Fits offset bs
  · rw [Rule.Holds, hx.run_of_fits hfit]
    exact ⟨(Change.word m offset bs).leads (hK _ (.word hwidth)), by simp⟩
  · -- What has been laid down before the fault lies in the field as well.
    obtain ⟨e, n, hrun, he⟩ := hx.run_of_not_fits hfit
    have htake : (bs.take n).length ≤ width := by
      rw [List.length_take]
      omega
    rw [Rule.Holds, hrun]
    refine ⟨(Change.word m offset _).leads (hK _ (.word htake)), fun _ _ _ => ?_⟩
    have hover : ¬offset + bs.length ≤ m.size := fun hle => hfit (.inr hle)
    change (m.putBytes offset (bs.take n)).size < Layout.size
    rw [size_putBytes]
    omega

/-- The purses set aside for the nine chapters. -/
def Deed.OfStash (d : Deed) : Prop := ∃ n < 9, OfField (Layout.stash + n * 4) 4 d

theorem stashOffset_eq_ok {c : Chapter} {offset : Nat} (h : stashOffset c = .ok offset) :
    ∃ n < 9, offset = Layout.stash + n * 4 := by
  unfold stashOffset at h
  split_ifs at h with hc
  cases h
  rw [Chapter.inStory, Bool.and_eq_true, decide_eq_true_eq, decide_eq_true_eq] at hc
  exact ⟨_, by omega, rfl⟩

theorem stashOffset_le {c : Chapter} {offset : Nat} (h : stashOffset c = .ok offset) :
    offset + 4 ≤ Layout.size := by
  obtain ⟨n, hn, rfl⟩ := stashOffset_eq_ok h
  rw [Layout.stash, Layout.size]
  omega

/-- A chapter without a purse is no fault of the image. -/
theorem stashOffset_error {c : Chapter} {e : Fault} (h : stashOffset c = .error e) :
    e.isCorruption = false := by
  unfold stashOffset at h
  split_ifs at h
  cases h
  rfl

theorem obeys_setStash {c : Chapter} {gold : Royals} (hK : ∀ d, Deed.OfStash d → K d) :
    (rule K).Obeys (setStash c gold) := by
  unfold setStash
  split
  · rename_i offset hoffset
    obtain ⟨n, hn, hplace⟩ := stashOffset_eq_ok hoffset
    refine (writes_writeU32 _ _).obeys (Nat.le_refl 4) (stashOffset_le hoffset) fun d hd => ?_
    rw [hplace] at hd
    exact hK d ⟨n, hn, hd⟩
  · rename_i e he
    exact obeys_throw (stashOffset_error he)

end QuestLogic.Image
