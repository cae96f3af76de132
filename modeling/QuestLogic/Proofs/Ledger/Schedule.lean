import Mathlib.Data.Nat.Find
import Mathlib.Logic.ExistsUnique
import QuestLogic.Event.Pointer
import QuestLogic.Ledger.Basic

/-!
# What several spans leave of timed effects

Effects that outlast a span keep the rest of their time (`remaining`). Since time is taken away
without going below zero, spans one after the other leave what a single span leaves that is as long
as all of them together (`foldl_remaining`). An effect runs out in the first of the spans by which
all of its time has passed (`Effect.RunsOutIn`), and so in one of them and no other if they are long
enough together (`Effect.existsUnique_runsOutIn`).
-/

namespace QuestLogic

/-! ## Spans in a row -/

namespace Time

/-- A time is its number of ticks. -/
theorem ext_toNat {a b : Time} (h : a.toNat = b.toNat) : a = b :=
  congrArg Time.mk (UInt32.toNat_inj.1 h)

/-- No time is longer than the longest span. -/
theorem toNat_le (t : Time) : t.toNat ≤ 4294967295 := Nat.le_of_lt_succ t.ticks.toNat_lt

theorem add_assoc (a b c : Time) : a + b + c = a + (b + c) := by
  apply ext_toNat
  simp only [toNat_add]
  omega

@[simp] theorem add_zero (a : Time) : a + .zero = a := by
  have hle := a.toNat_le
  apply ext_toNat
  rw [toNat_add]
  change min (a.toNat + 0) 4294967295 = _
  omega

/-- Spans one after the other, or the longest span there is. -/
def total (spans : List Time) : Time := spans.foldr (· + ·) .zero

@[simp] theorem total_cons (d : Time) (rest : List Time) : total (d :: rest) = d + total rest := rfl

@[simp] theorem total_nil : total [] = .zero := rfl

end Time

/-- How many ticks have passed after the first `k` spans. -/
def elapsed (spans : List Time) (k : Nat) : Nat := (spans.take k).foldr (fun d n => d.toNat + n) 0

@[simp] theorem elapsed_zero (spans : List Time) : elapsed spans 0 = 0 := rfl

@[simp] theorem elapsed_cons (d : Time) (rest : List Time) (k : Nat) :
    elapsed (d :: rest) (k + 1) = d.toNat + elapsed rest k := rfl

/-- No more passes in some of the spans than in all of them. -/
theorem elapsed_le (spans : List Time) (k : Nat) :
    elapsed spans k ≤ elapsed spans spans.length := by
  induction spans generalizing k with
  | nil => rw [elapsed, List.take_nil]; exact Nat.zero_le _
  | cons d rest ih =>
    cases k with
    | zero => exact Nat.zero_le _
    | succ k =>
      rw [List.length_cons, elapsed_cons, elapsed_cons]
      exact Nat.add_le_add_left (ih k) _

/-! ## Effects that outlast a span -/

namespace Effect

/-- There is time left after the span. -/
def Outlasts (e : Effect) (span : Time) : Prop := span.toNat < e.duration.toNat

instance (e : Effect) (span : Time) : Decidable (e.Outlasts span) :=
  inferInstanceAs (Decidable (_ < _))

/-- The effect is a light that burns out within the span. -/
def BurnsOut (e : Effect) (span : Time) : Prop :=
  e.kind = .light ∧ 0 < e.duration.toNat ∧ e.duration.toNat ≤ span.toNat

instance (e : Effect) (span : Time) : Decidable (e.BurnsOut span) :=
  inferInstanceAs (Decidable (_ ∧ _))

@[simp] theorem toNat_duration_decay (e : Effect) (span : Time) :
    (e.decay span).duration.toNat = e.duration.toNat - span.toNat := Time.toNat_sub _ _

/-- Time has run out after a span just if the effect does not outlast it. -/
theorem isZero_decay (e : Effect) (span : Time) :
    (e.decay span).duration.isZero = decide (¬e.Outlasts span) := by
  rw [Time.isZero, toNat_duration_decay, decide_eq_decide]
  unfold Outlasts
  omega

theorem decay_decay (e : Effect) (a b : Time) : (e.decay a).decay b = e.decay (a + b) := by
  have hle := e.duration.toNat_le
  refine congrArg (Effect.mk e.kind e.flags e.subject) (Time.ext_toNat ?_)
  change (e.duration - a - b).toNat = (e.duration - (a + b)).toNat
  simp only [Time.toNat_sub, Time.toNat_add]
  omega

/-- To outlast two spans is to outlast the second with what the first one leaves. -/
theorem outlasts_add {e : Effect} {a b : Time} :
    e.Outlasts (a + b) ↔ e.Outlasts a ∧ (e.decay a).Outlasts b := by
  have hle := e.duration.toNat_le
  unfold Outlasts
  rw [toNat_duration_decay, Time.toNat_add]
  omega

/-- The flag that an effect writes when it runs out, and what it writes, if it is to write one. -/
def scheduled? (e : Effect) : Option (EventPtr × Bool) :=
  match e.kind with
  | .setState => some (e.subject, true)
  | .resetState => some (e.subject, false)
  | .nothing | .light | .spell => none

end Effect

/-- What a span leaves of some effects. -/
def remaining (span : Time) (es : List Effect) : List Effect :=
  (es.filter (·.Outlasts span)).map (·.decay span)

theorem remaining_remaining (a b : Time) (es : List Effect) :
    remaining b (remaining a es) = remaining (a + b) es := by
  have hdecay : (·.decay b) ∘ (·.decay a) = fun e : Effect => e.decay (a + b) :=
    funext fun e => e.decay_decay a b
  unfold remaining
  rw [List.filter_map, List.map_map, List.filter_filter, hdecay]
  refine congrArg (List.map _) (List.filter_congr fun e _ => ?_)
  rw [Function.comp_apply, ← Bool.decide_and, decide_eq_decide, Effect.outlasts_add]
  exact and_comm

/-- Spans one after the other leave what a single span leaves that is as long as all of them. -/
theorem foldl_remaining (d : Time) (rest : List Time) (es : List Effect) :
    rest.foldl (fun es d => remaining d es) (remaining d es) =
      remaining (Time.total (d :: rest)) es := by
  induction rest generalizing d with
  | nil => rw [Time.total_cons, Time.total_nil, Time.add_zero, List.foldl_nil]
  | cons d' rest ih =>
    rw [List.foldl_cons, remaining_remaining, ih, Time.total_cons, Time.total_cons, Time.total_cons,
      Time.add_assoc]

/-! ## The span in which an effect runs out -/

namespace Effect

/-- The span at position `k` is the first by which all the time of the effect has passed. -/
def RunsOutIn (e : Effect) (spans : List Time) (k : Nat) : Prop :=
  e.duration.toNat ≤ elapsed spans (k + 1) ∧ ∀ j < k, elapsed spans (j + 1) < e.duration.toNat

instance (e : Effect) (spans : List Time) (k : Nat) : Decidable (e.RunsOutIn spans k) :=
  inferInstanceAs (Decidable (_ ∧ _))

variable {e : Effect} {d : Time} {spans rest : List Time} {k : Nat}

theorem runsOutIn_zero : e.RunsOutIn (d :: rest) 0 ↔ ¬e.Outlasts d := by
  rw [RunsOutIn, elapsed_cons, elapsed_zero, Nat.add_zero, Outlasts, Nat.not_lt]
  exact and_iff_left fun j hj => absurd hj j.not_lt_zero

/-- To run out in a later span is to outlast the first and to run out in the later one with what is
left. -/
theorem runsOutIn_succ :
    e.RunsOutIn (d :: rest) (k + 1) ↔ e.Outlasts d ∧ (e.decay d).RunsOutIn rest k := by
  simp only [RunsOutIn, elapsed_cons, toNat_duration_decay, Outlasts]
  constructor
  · rintro ⟨hreached, hbefore⟩
    have hfirst := hbefore 0 k.succ_pos
    rw [elapsed_zero, Nat.add_zero] at hfirst
    refine ⟨hfirst, by omega, fun j hj => ?_⟩
    have hlater := hbefore (j + 1) (Nat.succ_lt_succ hj)
    omega
  · rintro ⟨hfirst, hreached, hbefore⟩
    refine ⟨by omega, fun j hj => ?_⟩
    cases j with
    | zero => rwa [elapsed_zero, Nat.add_zero]
    | succ j =>
      have hlater := hbefore j (Nat.lt_of_succ_lt_succ hj)
      omega

/-- An effect runs out in at most one of the spans. -/
theorem RunsOutIn.unique {k' : Nat} (h : e.RunsOutIn spans k) (h' : e.RunsOutIn spans k') :
    k = k' := by
  rcases Nat.lt_trichotomy k k' with hlt | heq | hlt
  · exact absurd h.1 (Nat.not_le.2 (h'.2 k hlt))
  · exact heq
  · exact absurd h'.1 (Nat.not_le.2 (h.2 k' hlt))

/-- Spans that are long enough together have one in which the effect runs out, and no other. -/
theorem existsUnique_runsOutIn (hne : spans ≠ [])
    (h : e.duration.toNat ≤ elapsed spans spans.length) :
    ∃! k, k < spans.length ∧ e.RunsOutIn spans k := by
  have hlength := List.length_pos_iff.2 hne
  have hlast : e.duration.toNat ≤ elapsed spans (spans.length - 1 + 1) := by
    rwa [Nat.sub_add_cancel hlength]
  have hex : ∃ k, e.duration.toNat ≤ elapsed spans (k + 1) := ⟨_, hlast⟩
  have hfind : e.RunsOutIn spans (Nat.find hex) :=
    ⟨Nat.find_spec hex, fun j hj => Nat.not_le.1 (Nat.find_min hex hj)⟩
  refine ⟨Nat.find hex, ⟨?_, hfind⟩, fun k hk => hk.2.unique hfind⟩
  exact Nat.lt_of_le_of_lt (Nat.find_min' hex hlast) (Nat.sub_lt hlength Nat.one_pos)

/-- Spans that are too short together have none. -/
theorem not_runsOutIn (h : elapsed spans spans.length < e.duration.toNat) :
    ¬e.RunsOutIn spans k := fun hout =>
  absurd (Nat.le_trans hout.1 (elapsed_le spans (k + 1))) (Nat.not_le.2 h)

end Effect

/-! ## The flags that are written -/

/-- The flags that some effects write when they run out, in order. -/
def flagsOf (es : List Effect) : List (EventPtr × Bool) := es.filterMap Effect.scheduled?

theorem flagsOf_append (es es' : List Effect) : flagsOf (es ++ es') = flagsOf es ++ flagsOf es' :=
  List.filterMap_append

/-- A flag that is written in the first of two spans, or in the second by what the first one leaves,
is one of an effect that does not outlast both. -/
theorem mem_flagsOf_add {a b : Time} {es : List Effect} {w : EventPtr × Bool}
    (h : w ∈ flagsOf (es.filter (¬·.Outlasts a)) ∨
      w ∈ flagsOf ((remaining a es).filter (¬·.Outlasts b))) :
    w ∈ flagsOf (es.filter (¬·.Outlasts (a + b))) := by
  simp only [flagsOf, List.mem_filterMap, List.mem_filter, decide_eq_true_eq] at h ⊢
  rcases h with ⟨e, ⟨he, hout⟩, hw⟩ | ⟨e, ⟨he, hout⟩, hw⟩
  · exact ⟨e, ⟨he, fun h => hout (Effect.outlasts_add.1 h).1⟩, hw⟩
  -- What the first span leaves is due to write the same flag.
  · obtain ⟨d, hd, rfl⟩ := List.mem_map.1 he
    exact ⟨d, ⟨(List.mem_filter.1 hd).1, fun h => hout (Effect.outlasts_add.1 h).2⟩, hw⟩

/-- The flags that are written in the span at position `k`. -/
def flagsIn (spans : List Time) (k : Nat) (es : List Effect) : List (EventPtr × Bool) :=
  flagsOf (es.filter (·.RunsOutIn spans k))

theorem flagsIn_zero (d : Time) (rest : List Time) (es : List Effect) :
    flagsIn (d :: rest) 0 es = flagsOf (es.filter (¬·.Outlasts d)) := by
  refine congrArg flagsOf (List.filter_congr fun e _ => ?_)
  rw [decide_eq_decide, Effect.runsOutIn_zero]

/-- What is written later is written by what the first span leaves. -/
theorem flagsIn_succ (d : Time) (rest : List Time) (k : Nat) (es : List Effect) :
    flagsIn (d :: rest) (k + 1) es = flagsIn rest k (remaining d es) := by
  unfold flagsIn flagsOf remaining
  rw [List.filter_map, List.filterMap_map, List.filter_filter]
  refine congrArg (List.filterMap Effect.scheduled?) (List.filter_congr fun e _ => ?_)
  rw [Function.comp_apply, ← Bool.decide_and, decide_eq_decide, Effect.runsOutIn_succ]
  exact and_comm

end QuestLogic
