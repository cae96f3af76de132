import Mathlib.Tactic.SplitIfs
import QuestLogic.Ledger.Basic

/-!
# Effects that begin and run out

What the operations on a ledger do to its entries: an effect that begins either gives one entry a
new duration or joins at the end while there is room (`Ledger.add?_cases`), and a pass takes time
from the first entries, as far as it gets (`Ledger.wear`).
-/

namespace QuestLogic

/-- Effects once the first `k` of them have lost time. -/
def worn (span : Time) (k : Nat) (es : List Effect) : List Effect :=
  (es.take k).map (·.decay span) ++ es.drop k

namespace Ledger

/-- The ledger once its first `k` entries have lost time. -/
def wear (l : Ledger) (span : Time) (k : Nat) : Ledger :=
  { l with entries := worn span k l.entries }

/-- An effect that begins renews a running one or joins at the end. -/
theorem add?_cases {l l' : Ledger} {kind : EffectKind} {subject : UInt16} {flags : UInt8}
    {duration : Time} (h : l.add? kind subject flags duration = some l') :
    (Effect.merges flags = true ∧ (l.find? kind subject).isSome = true ∧
        l' = { l with entries := renew kind subject flags duration l.entries }) ∨
      (¬(Effect.merges flags && (l.find? kind subject).isSome) = true ∧
        l.entries.length < l.capacity ∧
        l' = { l with entries := l.entries ++ [⟨kind, flags, subject, duration⟩] }) := by
  unfold add? at h
  split_ifs at h with hmerge hroom
  · cases h
    rw [Bool.and_eq_true] at hmerge
    exact .inl ⟨hmerge.1, hmerge.2, rfl⟩
  · cases h
    exact .inr ⟨hmerge, hroom, rfl⟩

/-- Renewing an entry leaves their number alone. -/
@[simp] theorem length_renew (kind : EffectKind) (subject : UInt16) (flags : UInt8)
    (duration : Time) (es : List Effect) :
    (renew kind subject flags duration es).length = es.length := by
  induction es with
  | nil => rfl
  | cons e rest ih =>
    rw [renew]
    split
    · rfl
    · rw [List.length_cons, ih, List.length_cons]

/-- Of the entries of a kind and subject the first one gets the new duration. -/
theorem renew_eq_append (kind : EffectKind) (subject : UInt16) (flags : UInt8) (duration : Time)
    {es : List Effect} (h : ∃ e ∈ es, e.isAbout kind subject = true) :
    ∃ before e after, es = before ++ e :: after ∧
      (∀ x ∈ before, ¬x.isAbout kind subject = true) ∧ e.isAbout kind subject = true ∧
      renew kind subject flags duration es = before ++ { e with duration :=
        if flags &&& Effect.extend ≠ 0 then e.duration + duration else duration } :: after := by
  induction es with
  | nil =>
    obtain ⟨_, he, -⟩ := h
    cases he
  | cons e rest ih =>
    rw [renew]
    split
    · rename_i habout
      exact ⟨[], e, rest, rfl, fun _ hx => absurd hx List.not_mem_nil, habout, rfl⟩
    · rename_i habout
      have hrest : ∃ e' ∈ rest, e'.isAbout kind subject = true := by
        obtain ⟨e', he', h'⟩ := h
        obtain rfl | he' := List.mem_cons.1 he'
        · exact absurd h' habout
        · exact ⟨e', he', h'⟩
      obtain ⟨before, e', after, rfl, hbefore, habout', hrenew⟩ := ih hrest
      exact ⟨e :: before, e', after, rfl, List.forall_mem_cons.2 ⟨habout, hbefore⟩, habout',
        congrArg (e :: ·) hrenew⟩

/-! ## Room -/

/-- The ledger holds no more than it has room for. -/
def Bounded (l : Ledger) : Prop := l.entries.length ≤ l.capacity

/-- An effect that begins finds room and leaves the capacity alone. -/
theorem Bounded.add? {l l' : Ledger} (h : l.Bounded) {kind : EffectKind} {subject : UInt16}
    {flags : UInt8} {duration : Time} (hadd : l.add? kind subject flags duration = some l') :
    l'.Bounded ∧ l'.capacity = l.capacity := by
  obtain ⟨-, -, rfl⟩ | ⟨-, hroom, rfl⟩ := add?_cases hadd
  · refine ⟨?_, rfl⟩
    rw [Bounded, length_renew]
    exact h
  · refine ⟨?_, rfl⟩
    rw [Bounded, List.length_append]
    exact hroom

/-- Entries that are dropped leave room. -/
theorem Bounded.filter {l : Ledger} (h : l.Bounded) (keep : Effect → Bool) :
    Bounded { l with entries := l.entries.filter keep } :=
  Nat.le_trans (List.length_filter_le keep l.entries) h

end Ledger

end QuestLogic
