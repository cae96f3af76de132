import QuestLogic.Proofs.Ledger.Basic

/-!
# The spells of a ledger

The entries of one spell among the timed effects (`Ledger.ofSpell`), and whether one of them has
time left (`Ledger.Keeps`). An effect that begins concerns the entries of its own kind and subject
only, and to cast a spell keeps it in effect if it is kept already or the cast lasts
(`Ledger.keeps_addSpell?`). Casting, time that passes and entries that are dropped leave no more
than one entry for each spell if there was no more before (`Ledger.Distinct`).
-/

namespace QuestLogic

theorem Time.isZero_eq_false {t : Time} : t.isZero = false ↔ 0 < t.toNat := by
  rw [isZero, decide_eq_false_iff_not, Nat.pos_iff_ne_zero]

/-- A sum of spans lasts if one of them does. -/
theorem Time.isZero_add (a b : Time) :
    (a + b).isZero = false ↔ a.isZero = false ∨ b.isZero = false := by
  rw [isZero_eq_false, isZero_eq_false, isZero_eq_false, toNat_add]
  omega

namespace Ledger

variable {l l' : Ledger} {n : UInt16}

/-- The entries of a spell, in order. -/
def ofSpell (l : Ledger) (n : UInt16) : List Effect := l.entries.filter (·.isAbout .spell n)

/-- Some entry of the spell has time left. -/
def Keeps (l : Ledger) (n : UInt16) : Prop :=
  ∃ e ∈ l.entries, e.kind = .spell ∧ e.subject = n ∧ e.duration.isZero = false

theorem isAbout_iff {e : Effect} {kind : EffectKind} {subject : UInt16} :
    e.isAbout kind subject = true ↔ e.kind = kind ∧ e.subject = subject := by
  simp [Effect.isAbout]

theorem mem_ofSpell {e : Effect} :
    e ∈ l.ofSpell n ↔ e ∈ l.entries ∧ e.kind = .spell ∧ e.subject = n := by
  rw [ofSpell, List.mem_filter, isAbout_iff]

theorem keeps_iff : l.Keeps n ↔ ∃ e ∈ l.ofSpell n, e.duration.isZero = false := by
  simp only [Keeps, mem_ofSpell, and_assoc]

theorem keeps_iff_isAbout :
    l.Keeps n ↔ ∃ e ∈ l.entries, e.isAbout .spell n = true ∧ e.duration.isZero = false := by
  simp only [Keeps, isAbout_iff, and_assoc]

/-- What has run out keeps no spell in effect. -/
theorem keeps_removeExpired : l.removeExpired.Keeps n ↔ l.Keeps n := by
  unfold Keeps removeExpired
  constructor
  · rintro ⟨e, he, hkeeps⟩
    exact ⟨e, (List.mem_filter.1 he).1, hkeeps⟩
  · rintro ⟨e, he, hkeeps⟩
    exact ⟨e, List.mem_filter.2 ⟨he, by rw [hkeeps.2.2]; rfl⟩, hkeeps⟩

theorem keeps_congr (h : l'.ofSpell n = l.ofSpell n) : l'.Keeps n ↔ l.Keeps n := by
  rw [keeps_iff, keeps_iff, h]

/-- The entries of two different spells, or of a spell and another kind of effect, are apart. -/
theorem filter_renew_of_ne {kind : EffectKind} {subject : UInt16}
    (hne : ¬(kind = .spell ∧ subject = n)) (flags : UInt8) (duration : Time) (es : List Effect) :
    (renew kind subject flags duration es).filter (·.isAbout .spell n) =
      es.filter (·.isAbout .spell n) := by
  induction es with
  | nil => rfl
  | cons e rest ih =>
    rw [renew]
    split
    -- The entry that gets a new duration is not of the spell, before or after.
    · rename_i habout
      have hout : ∀ d, ({ e with duration := d } : Effect).isAbout .spell n = false := fun d => by
        refine Bool.eq_false_iff.2 fun h => hne ?_
        rw [isAbout_iff] at h habout
        exact ⟨habout.1.symm.trans h.1, habout.2.symm.trans h.2⟩
      rw [List.filter_cons_of_neg (by simp [hout]), List.filter_cons_of_neg (by
        simpa using hout e.duration)]
    · rw [List.filter_cons, List.filter_cons, ih]

/-- An effect that begins leaves the entries of other spells alone. -/
theorem ofSpell_add?_of_ne {kind : EffectKind} {subject : UInt16} {flags : UInt8} {duration : Time}
    (h : l.add? kind subject flags duration = some l') (hne : ¬(kind = .spell ∧ subject = n)) :
    l'.ofSpell n = l.ofSpell n := by
  obtain ⟨-, -, rfl⟩ | ⟨-, -, rfl⟩ := add?_cases h
  · exact filter_renew_of_ne hne flags duration l.entries
  · have hout : (⟨kind, flags, subject, duration⟩ : Effect).isAbout .spell n = false :=
      Bool.eq_false_iff.2 fun h => hne (isAbout_iff.1 h)
    rw [ofSpell, List.filter_append, List.filter_cons_of_neg (by simp [hout]), List.filter_nil,
      List.append_nil]
    rfl

/-- To extend a spell keeps it in effect if it is kept already or the extension lasts. -/
theorem keeps_renew (duration : Time) {es : List Effect}
    (hes : ∃ e ∈ es, e.isAbout .spell n = true) :
    (∃ e ∈ (renew .spell n Effect.extend duration es).filter (·.isAbout .spell n),
        e.duration.isZero = false) ↔
      (∃ e ∈ es.filter (·.isAbout .spell n), e.duration.isZero = false) ∨
        duration.isZero = false := by
  induction es with
  | nil =>
    obtain ⟨e, he, -⟩ := hes
    cases he
  | cons e rest ih =>
    rw [renew]
    split
    · rename_i habout
      have habout' : ({ e with duration := e.duration + duration } : Effect).isAbout .spell n =
          true := habout
      -- This is the entry that is extended, and a sum lasts if one of its parts does.
      rw [if_pos (by decide), List.filter_cons, if_pos habout', List.filter_cons, if_pos habout]
      simp only [List.mem_cons, or_and_right, exists_or, exists_eq_left, Time.isZero_add]
      constructor
      · rintro ((h | h) | h)
        · exact .inl (.inl h)
        · exact .inr h
        · exact .inl (.inr h)
      · rintro ((h | h) | h)
        · exact .inl (.inl h)
        · exact .inr h
        · exact .inl (.inr h)
    · rename_i habout
      have hrest : ∃ e ∈ rest, e.isAbout .spell n = true := by
        obtain ⟨e', he', h⟩ := hes
        rcases List.mem_cons.1 he' with rfl | he'
        · exact absurd h habout
        · exact ⟨e', he', h⟩
      rw [List.filter_cons, if_neg habout, List.filter_cons, if_neg habout]
      exact ih hrest

theorem keeps_addSpell? {duration : Time} (h : l.addSpell? n duration = some l') :
    l'.Keeps n ↔ l.Keeps n ∨ duration.isZero = false := by
  rw [keeps_iff, keeps_iff]
  obtain ⟨-, hfind, rfl⟩ | ⟨-, -, rfl⟩ := add?_cases h
  · rw [find?, List.find?_isSome] at hfind
    exact keeps_renew duration hfind
  · have hin : (⟨.spell, Effect.extend, n, duration⟩ : Effect).isAbout .spell n = true :=
      isAbout_iff.2 ⟨rfl, rfl⟩
    rw [ofSpell, List.filter_append, List.filter_cons, if_pos hin, List.filter_nil]
    simp [ofSpell, or_and_right, exists_or]

/-- Lights are no spells. -/
theorem ofSpell_removeKind_light : (l.removeKind .light).ofSpell n = l.ofSpell n := by
  rw [ofSpell, ofSpell, removeKind, List.filter_filter]
  refine List.filter_congr fun e _ => ?_
  cases h : e.isAbout .spell n with
  | false => rfl
  | true =>
    rw [(isAbout_iff.1 h).1]
    rfl

/-! ## At most one entry for each spell -/

/-- The ledger has no more than one entry for each spell that can be in effect. -/
def Distinct (l : Ledger) : Prop := ∀ n : UInt16, n.toNat < 16 → (l.ofSpell n).length ≤ 1

/-- A single entry has no second. -/
theorem distinct_of_length_le (h : l.entries.length ≤ 1) : l.Distinct := fun _ _ =>
  Nat.le_trans (List.length_filter_le _ _) h

theorem Distinct.of_length_eq (h : l.Distinct)
    (hlength : ∀ n : UInt16, n.toNat < 16 → (l'.ofSpell n).length = (l.ofSpell n).length) :
    l'.Distinct := fun n hn => by
  rw [hlength n hn]
  exact h n hn

/-- Entries that are dropped leave no more for a spell. -/
theorem Distinct.filter (h : l.Distinct) (keep : Effect → Bool) :
    Distinct { l with entries := l.entries.filter keep } := fun n hn =>
  Nat.le_trans (List.Sublist.filter _ List.filter_sublist).length_le (h n hn)

/-- Renewing an entry leaves the number of entries for each spell alone. -/
theorem length_filter_renew (kind : EffectKind) (subject : UInt16) (flags : UInt8) (duration : Time)
    (es : List Effect) :
    ((renew kind subject flags duration es).filter (·.isAbout .spell n)).length =
      (es.filter (·.isAbout .spell n)).length := by
  induction es with
  | nil => rfl
  | cons e rest ih =>
    rw [renew]
    split
    -- The entry counts for the same spell as before.
    · rw [List.filter_cons, List.filter_cons]
      change List.length (if e.isAbout .spell n = true then _ else _) = _
      split_ifs <;> rfl
    · rw [List.filter_cons, List.filter_cons]
      split_ifs
      · rw [List.length_cons, ih, List.length_cons]
      · exact ih

/-- Casting extends the entry of a spell, so that there is no second one. -/
theorem Distinct.addSpell? (h : l.Distinct) {k : UInt16} {duration : Time}
    (hadd : l.addSpell? k duration = some l') : l'.Distinct := by
  intro n hn
  by_cases hk : k = n
  · subst hk
    obtain ⟨-, -, rfl⟩ | ⟨hfind, -, rfl⟩ := add?_cases hadd
    · rw [ofSpell, length_filter_renew]
      exact h k hn
    -- An entry joins at the end only where none was found to extend.
    · have hnone : l.entries.filter (·.isAbout .spell k) = [] := by
        rw [List.filter_eq_nil_iff]
        intro e he habout
        refine hfind ?_
        rw [show Effect.merges Effect.extend = true by decide, Bool.true_and, find?,
          List.find?_isSome]
        exact ⟨e, he, habout⟩
      rw [ofSpell, List.filter_append, hnone, List.nil_append]
      exact List.length_filter_le _ _
  · rw [ofSpell_add?_of_ne hadd fun h => hk h.2]
    exact h n hn

end Ledger

end QuestLogic
