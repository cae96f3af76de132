import QuestLogic.Proofs.Ledger.Spell
import QuestLogic.Proofs.Session.Move
import QuestLogic.Proofs.Spell

/-!
# The spells in effect and the ledger

The spells in effect are to be those that the ledger keeps (`Session.Mirrors`). Passes over the
ledger and loading note the spells entry by entry, so that the last entry of a spell decides
(`Session.isActive_foldl_refresh`); what they note is right just if the last entry that they see of
a spell has run out only along with all the others (`Session.mirrors_iff_agrees`).

Most changes touch neither the spells in effect nor the entries of a spell (`Deed.Quiet`). With no
more than one entry for each spell the others keep the mirror too, except that a spell may not begin
other than by a cast that lasts, and that an image that is loaded has to have no second entry for a
spell (`Deed.Sparing`). So it is kept throughout any run of such moves (`Session.mirrors_of_runs`).
-/

namespace QuestLogic.Session

variable {s t : Session} {n : UInt16}

/-- The spells in effect are those that the ledger keeps. -/
def Mirrors (s : Session) : Prop :=
  ∀ n : UInt16, n.toNat < 16 → (s.spells.isActive n = true ↔ s.ledger.Keeps n)

/-- A session that has just begun has no spells, and its ledger none either. -/
theorem mirrors_ofSettings (settings : Settings) (party : Party) :
    (ofSettings settings party).Mirrors := by
  intro n _
  rw [show (ofSettings settings party).spells = .none from rfl, ActiveSpells.isActive_none]
  refine iff_of_false Bool.false_ne_true ?_
  rintro ⟨e, he, -⟩
  cases he

/-- Whether the mirror holds depends on the spells in effect and on the entries of spells. -/
theorem mirrors_congr (hspells : t.spells = s.spells)
    (hledger : ∀ n : UInt16, n.toNat < 16 → t.ledger.ofSpell n = s.ledger.ofSpell n) :
    t.Mirrors ↔ s.Mirrors := by
  refine forall_congr' fun n => forall_congr' fun hn => ?_
  rw [hspells, Ledger.keeps_congr (hledger n hn)]

/-! ## Noting spells entry by entry -/

/-- An entry decides about its own spell. -/
theorem isActive_refresh (hn : n.toNat < 16) (a : ActiveSpells) (e : Effect) :
    (refresh a e).isActive n =
      if e.isAbout .spell n = true then !e.duration.isZero else a.isActive n := by
  unfold refresh
  by_cases hkind : e.kind = .spell
  · rw [if_pos hkind, ActiveSpells.isActive_set a hn]
    refine if_congr ?_ rfl rfl
    rw [Ledger.isAbout_iff]
    exact ⟨fun h => ⟨hkind, h⟩, fun h => h.2⟩
  · rw [if_neg hkind, if_neg fun h => hkind (Ledger.isAbout_iff.1 h).1]

/-- Of several entries of a spell the last one decides; a spell without any stays as it was. -/
theorem isActive_foldl_refresh (hn : n.toNat < 16) (a : ActiveSpells) (es : List Effect) :
    (es.foldl refresh a).isActive n =
      match (es.filter (·.isAbout .spell n)).getLast? with
      | some last => !last.duration.isZero
      | none => a.isActive n := by
  induction es generalizing a with
  | nil => rfl
  | cons e rest ih =>
    rw [List.foldl_cons, ih, isActive_refresh hn, List.filter_cons]
    split_ifs
    · rw [List.getLast?_cons]
      cases (rest.filter (·.isAbout .spell n)).getLast? <;> rfl
    · rfl

/-- The last of the effects seen of a spell has run out only if all of its effects have. -/
def Agrees (seen all : List Effect) : Prop :=
  ∀ n : UInt16, n.toNat < 16 → ∀ last,
    (seen.filter (·.isAbout .spell n)).getLast? = some last → last.duration.isZero = true →
      ∀ e ∈ all, e.isAbout .spell n = true → e.duration.isZero = true

/-- Once some of the effects have been noted, and nothing is wrong about the spells that have none
among these, the mirror holds just if the last effect noted of a spell stands for all of them. -/
theorem mirrors_iff_agrees {a : ActiveSpells} {seen rest : List Effect}
    (hspells : t.spells = seen.foldl refresh a)
    (hledger : ∀ n, t.ledger.Keeps n ↔
      ∃ e ∈ seen ++ rest, e.isAbout .spell n = true ∧ e.duration.isZero = false)
    (hunseen : ∀ n : UInt16, n.toNat < 16 → seen.filter (·.isAbout .spell n) = [] →
      (a.isActive n = true ↔
        ∃ e ∈ rest, e.isAbout .spell n = true ∧ e.duration.isZero = false)) :
    t.Mirrors ↔ Agrees seen (seen ++ rest) := by
  refine forall_congr' fun n => forall_congr' fun hn => ?_
  rw [hspells, isActive_foldl_refresh hn, hledger]
  rcases hlast : (seen.filter (·.isAbout .spell n)).getLast? with _ | last
  all_goals rw [hlast]
  -- A spell that has no effect among those seen is as it was.
  · have hnil := List.getLast?_eq_none_iff.1 hlast
    refine iff_of_true ?_ fun last h => by cases h
    refine (hunseen n hn hnil).trans ⟨?_, ?_⟩
    · rintro ⟨e, he, h⟩
      exact ⟨e, List.mem_append_right seen he, h⟩
    · rintro ⟨e, he, habout, h⟩
      rcases List.mem_append.1 he with he | he
      · exact absurd habout (List.filter_eq_nil_iff.1 hnil e he)
      · exact ⟨e, he, habout, h⟩
  -- For any other the last effect seen has decided.
  · obtain ⟨hmem, habout⟩ := List.mem_filter.1 (List.mem_of_getLast? hlast)
    constructor
    · intro h last' hlast' hzero e he habout'
      cases hlast'
      rw [← Bool.not_eq_false]
      intro hkeeps
      have hlasts := h.2 ⟨e, he, habout', hkeeps⟩
      dsimp only at hlasts
      rw [hzero] at hlasts
      cases hlasts
    · intro h
      dsimp only
      rw [Bool.not_eq_true']
      refine ⟨fun hlasts => ⟨last, List.mem_append_left rest hmem, habout, hlasts⟩, ?_⟩
      rintro ⟨e, he, habout', hkeeps⟩
      rw [← Bool.not_eq_true]
      intro hzero
      rw [h last rfl hzero e he habout'] at hkeeps
      cases hkeeps

/-- Where there is no more than one effect of each spell, what is seen of it stands for all. -/
theorem agrees_of_length_le {seen all : List Effect} (hseen : seen ⊆ all)
    (h : ∀ n : UInt16, n.toNat < 16 → (all.filter (·.isAbout .spell n)).length ≤ 1) :
    Agrees seen all := by
  intro n hn last hlast hzero e he habout
  obtain ⟨hlast', habout'⟩ := List.mem_filter.1 (List.mem_of_getLast? hlast)
  have hmem : e ∈ all.filter (·.isAbout .spell n) := List.mem_filter.2 ⟨he, habout⟩
  have hmem' : last ∈ all.filter (·.isAbout .spell n) :=
    List.mem_filter.2 ⟨hseen hlast', habout'⟩
  obtain ⟨x, hx⟩ := List.length_eq_one_iff.1
    (Nat.le_antisymm (h n hn) (List.length_pos_of_mem hmem))
  rw [hx, List.mem_singleton] at hmem hmem'
  rw [hmem, ← hmem']
  exact hzero

/-! ## Changes that touch no spell -/

/-- The changes that touch neither the spells in effect nor the entries of a spell. -/
def Deed.Quiet : Deed → Prop
  | .load _ | .cast _ _ | .visit _ | .sweep => False
  | .begin kind subject _ _ => ¬(kind = .spell ∧ subject.toNat < 16)
  | _ => True

theorem Change.quiet {d : Deed} (h : Change d s t) (hd : d.Quiet) :
    t.spells = s.spells ∧
      ∀ n : UInt16, n.toNat < 16 → t.ledger.ofSpell n = s.ledger.ofSpell n := by
  cases h with
  | load h => exact hd.elim
  | cast h => exact hd.elim
  | visit h span => exact hd.elim
  | sweep => exact hd.elim
  -- What begins is either no spell or one that cannot be in effect.
  | begin h =>
    refine ⟨rfl, fun n hn => Ledger.ofSpell_add?_of_ne h fun hspell => hd ?_⟩
    rw [hspell.2]
    exact ⟨hspell.1, hn⟩
  | kindle h level =>
    refine ⟨rfl, fun n hn => Ledger.ofSpell_add?_of_ne h fun hspell => ?_⟩
    cases hspell.1
  | douse => exact ⟨rfl, fun n hn => Ledger.ofSpell_removeKind_light⟩
  | note h =>
    rw [h.spells, h.ledger]
    exact ⟨rfl, fun n hn => rfl⟩
  | _ => exact ⟨rfl, fun n hn => rfl⟩

theorem Leads.quiet (h : Leads Deed.Quiet s t) :
    t.spells = s.spells ∧
      ∀ n : UInt16, n.toNat < 16 → t.ledger.ofSpell n = s.ledger.ofSpell n := by
  refine h.keeps (P := fun u => u.spells = s.spells ∧
    ∀ n : UInt16, n.toNat < 16 → u.ledger.ofSpell n = s.ledger.ofSpell n)
    (fun hd hchange ⟨hspells, hledger⟩ => ?_) ⟨rfl, fun _ _ => rfl⟩
  obtain ⟨hspells', hledger'⟩ := hchange.quiet hd
  exact ⟨hspells'.trans hspells, fun n hn => (hledger' n hn).trans (hledger n hn)⟩

/-! ## Changes that keep the mirror -/

/-- The mirror holds, and no spell has two entries. -/
structure Clear (s : Session) : Prop where
  mirrors : s.Mirrors
  distinct : s.ledger.Distinct

/-- The changes that keep the mirror of a ledger with no more than one entry for each spell. -/
def Deed.Sparing : Deed → Prop
  | .begin kind subject _ _ => ¬(kind = .spell ∧ subject.toNat < 16)
  | .cast _ duration => duration.isZero = false
  | .load m => ∀ capacity l, Ledger.load m capacity = .ok l → l.Distinct
  | _ => True

theorem Clear.quiet (hs : s.Clear) {d : Deed} (h : Change d s t) (hd : d.Quiet) : t.Clear := by
  obtain ⟨hspells, hledger⟩ := h.quiet hd
  exact ⟨(mirrors_congr hspells hledger).2 hs.mirrors,
    hs.distinct.of_length_eq fun n hn => congrArg List.length (hledger n hn)⟩

/-- An image that is loaded decides about every spell. -/
theorem mirrors_loaded {m : Image} (h : s.loaded m = .ok t) :
    t.Mirrors ↔ Agrees t.ledger.entries t.ledger.entries := by
  have hspells : t.spells = t.ledger.entries.foldl refresh .none := by
    obtain ⟨_, _, _, _, _, _, -, -, -, -, -, -, -, rfl⟩ := loaded_eq_ok.1 h
    rfl
  have hagrees : t.Mirrors ↔ Agrees t.ledger.entries (t.ledger.entries ++ []) := by
    refine mirrors_iff_agrees hspells (fun n => ?_) fun n _ _ => ?_
    · rw [List.append_nil, Ledger.keeps_iff_isAbout]
    · rw [ActiveSpells.isActive_none]
      refine iff_of_false Bool.false_ne_true ?_
      rintro ⟨e, he, -⟩
      cases he
  rwa [List.append_nil] at hagrees

theorem clear_loaded {m : Image} (h : s.loaded m = .ok t)
    (hm : ∀ capacity l, Ledger.load m capacity = .ok l → l.Distinct) : t.Clear := by
  have hdistinct : t.ledger.Distinct := by
    obtain ⟨_, l, _, _, _, _, -, -, hl, -, -, -, -, rfl⟩ := loaded_eq_ok.1 h
    exact hm _ l hl
  exact ⟨(mirrors_loaded h).2 (agrees_of_length_le (fun _ he => he) hdistinct), hdistinct⟩

/-- A cast puts its spell into effect and touches no other. -/
theorem mirrors_cast (hs : s.Mirrors) {k : UInt16} (hk : k.toNat < 16) {duration : Time}
    {l : Ledger} (h : s.ledger.addSpell? k duration = some l) :
    Mirrors { s with ledger := l, spells := s.spells.set k true } ↔ l.Keeps k := by
  have hother : ∀ n : UInt16, n.toNat < 16 → k ≠ n →
      ((s.spells.set k true).isActive n = true ↔ l.Keeps n) := by
    intro n hn hne
    rw [ActiveSpells.isActive_set s.spells hn, if_neg hne, hs n hn,
      Ledger.keeps_congr (Ledger.ofSpell_add?_of_ne h fun hspell => hne hspell.2)]
  have hself : (s.spells.set k true).isActive k = true := by
    rw [ActiveSpells.isActive_set s.spells hk, if_pos rfl]
  constructor
  · intro ht
    exact (ht k hk).1 hself
  · intro hkeeps n hn
    by_cases hne : k = n
    · subst hne
      exact iff_of_true hself hkeeps
    · exact hother n hn hne

/-- The codes of spells that last have room among those in effect. -/
theorem code_lt (spell : StaticSpell) : spell.code.toNat < 16 := by
  cases spell <;> decide

theorem Clear.cast (hs : s.Clear) {spell : StaticSpell} {duration : Time} {l : Ledger}
    (h : s.ledger.addSpell? spell.code duration = some l) (hduration : duration.isZero = false) :
    Clear { s with ledger := l, spells := s.spells.set spell.code true } := by
  have hkeeps : l.Keeps spell.code := (Ledger.keeps_addSpell? h).2 (.inr hduration)
  exact ⟨(mirrors_cast hs.mirrors (code_lt spell) h).2 hkeeps, hs.distinct.addSpell? h⟩

/-- An entry that is the only one of its spell decides about it alone. -/
theorem Clear.visit (hs : s.Clear) {i : Nat} {e : Effect} (h : s.ledger.entries[i]? = some e)
    (span : Time) :
    Clear { s with
      ledger.entries := s.ledger.entries.set i (e.decay span),
      spells := refresh s.spells (e.decay span) } := by
  obtain ⟨hi, rfl⟩ := List.getElem?_eq_some_iff.1 h
  obtain ⟨before, after, hentries, hset⟩ : ∃ before after,
      s.ledger.entries = before ++ s.ledger.entries[i] :: after ∧
        s.ledger.entries.set i (s.ledger.entries[i].decay span) =
          before ++ s.ledger.entries[i].decay span :: after := by
    obtain ⟨before, after, hentries, -, hset⟩ := List.exists_of_set hi
    exact ⟨before, after, hentries, hset⟩
  generalize s.ledger.entries[i] = e at hentries hset
  have habout : ∀ n, (e.decay span).isAbout .spell n = e.isAbout .spell n := fun _ => rfl
  have hofSpell : ∀ n, s.ledger.ofSpell n = before.filter (·.isAbout .spell n) ++
      (e :: after).filter (·.isAbout .spell n) := by
    intro n
    rw [Ledger.ofSpell, hentries, List.filter_append]
  refine ⟨fun n hn => ?_, hs.distinct.of_length_eq fun n hn => ?_⟩
  · rw [isActive_refresh hn, habout, Ledger.keeps_iff]
    have hold := hs.mirrors n hn
    have hone := hs.distinct n hn
    rw [hofSpell, List.filter_cons] at hone
    rw [Ledger.keeps_iff, hofSpell, List.filter_cons] at hold
    rw [Ledger.ofSpell]
    dsimp only
    rw [hset, List.filter_append, List.filter_cons, habout]
    split_ifs at hone hold ⊢ with hspell
    -- No other entry of the spell is there to keep it.
    · rw [List.length_append, List.length_cons] at hone
      rw [List.length_eq_zero_iff.1 (by omega : (before.filter (·.isAbout .spell n)).length = 0),
        List.length_eq_zero_iff.1 (by omega : (after.filter (·.isAbout .spell n)).length = 0)]
      simp
    · exact hold
  · rw [hofSpell, Ledger.ofSpell]
    dsimp only
    rw [hset, List.filter_append, List.filter_cons, List.filter_cons, habout, List.length_append,
      List.length_append]
    split_ifs <;> rfl

/-- What has run out counts for nothing. -/
theorem Clear.sweep (hs : s.Clear) : Clear { s with ledger := s.ledger.removeExpired } :=
  ⟨fun n hn => (hs.mirrors n hn).trans Ledger.keeps_removeExpired.symm, hs.distinct.filter _⟩

/-- Every change that spares the mirror keeps it. -/
theorem Change.clear {d : Deed} (h : Change d s t) (hd : d.Sparing) (hs : s.Clear) : t.Clear := by
  cases d with
  | load m =>
    cases h with
    | load h => exact clear_loaded h hd
  | cast spell duration =>
    cases h with
    | cast h => exact hs.cast h hd
  | visit span =>
    cases h with
    | visit h span => exact hs.visit h span
  | sweep =>
    cases h
    exact hs.sweep
  | begin kind subject flags duration => exact hs.quiet h hd
  | _ => exact hs.quiet h trivial

/-- The moves that are made of changes that spare the mirror. -/
def Move.Sparing (v : Move) : Prop := ∀ d, v.Does d → d.Sparing

/-- Whatever moves that spare the mirror make of a new session, the mirror holds. -/
theorem mirrors_of_runs {settings : Settings} {party : Party}
    (h : Runs Move.Sparing (ofSettings settings party) s) : s.Mirrors := by
  have hclear : (ofSettings settings party).Clear :=
    ⟨mirrors_ofSettings settings party, fun _ _ => Nat.zero_le _⟩
  exact (h.keeps (I := Clear) (fun _ hv => hv) (fun hd hchange => hchange.clear hd)
    (fitsLedger_ofSettings settings party) hclear).mirrors

end QuestLogic.Session
