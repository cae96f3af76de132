import Mathlib.Data.List.Nodup
import QuestLogic.Proofs.Ledger.Schedule
import QuestLogic.Proofs.Ledger.Spell
import QuestLogic.Proofs.Lists

/-!
# Adding to a ledger

What adding an effect comes to is told by `Ledger.Adds`: the first entry about the same thing lasts
longer or gets a new duration, or else the effect joins at the end or is refused. To merge comes
before to look for room, so that a full ledger still extends what it has. This is all that adding
does (`Ledger.adds_iff`), and since nothing else brings entries in, a ledger never outgrows its
capacity, and holds no two entries about one thing unless an effect was made to stand apart
(`Ledger.add?_law`).
-/

namespace QuestLogic

/-- What an effect is about. -/
def Effect.key (e : Effect) : EffectKind × UInt16 := (e.kind, e.subject)

namespace Ledger

/-! ## The four outcomes -/

/-- The first of some entries about `k`, with what stands before and after it. -/
structure First (k : EffectKind × UInt16) (es before : List Effect) (e : Effect)
    (after : List Effect) : Prop where
  split : es = before ++ e :: after
  /-- None stands before it. -/
  earlier : ∀ x ∈ before, x.key ≠ k
  key : e.key = k

/-- An effect that is added with these flags may merge with a running one: it asks to extend it, or
does not ask to stand apart. -/
def Joins (flags : UInt8) : Prop := flags &&& 0x80 ≠ 0 ∨ flags &&& 0x40 = 0

/-- What adding an effect to a ledger comes to. -/
inductive Adds (l : Ledger) (kind : EffectKind) (subject : UInt16) (flags : UInt8)
    (duration : Time) : Option Ledger → Prop
  /-- The first entry about the same thing lasts that much longer, up to the longest time. -/
  | extended {before after : List Effect} {e : Effect} {longer : Time}
      (hflags : flags &&& 0x80 ≠ 0) (hfirst : First (kind, subject) l.entries before e after)
      (hlonger : longer.toNat = min (e.duration.toNat + duration.toNat) 4294967295) :
      Adds l kind subject flags duration
        (some { l with entries := before ++ { e with duration := longer } :: after })
  /-- The first entry about the same thing has its duration replaced. -/
  | replaced {before after : List Effect} {e : Effect} (hextend : flags &&& 0x80 = 0)
      (hapart : flags &&& 0x40 = 0) (hfirst : First (kind, subject) l.entries before e after) :
      Adds l kind subject flags duration
        (some { l with entries := before ++ { e with duration := duration } :: after })
  /-- It joins at the end if there is room. -/
  | appended (hnew : Joins flags → ∀ e ∈ l.entries, e.key ≠ (kind, subject))
      (hroom : l.entries.length < l.capacity) :
      Adds l kind subject flags duration
        (some { l with entries := l.entries ++ [⟨kind, flags, subject, duration⟩] })
  /-- It is refused if there is none. -/
  | refused (hnew : Joins flags → ∀ e ∈ l.entries, e.key ≠ (kind, subject))
      (hfull : l.capacity ≤ l.entries.length) : Adds l kind subject flags duration none

variable {l l' : Ledger} {kind : EffectKind} {subject : UInt16} {flags : UInt8} {duration : Time}
  {es before after : List Effect} {e : Effect} {o : Option Ledger}

theorem isAbout_iff_key : e.isAbout kind subject = true ↔ e.key = (kind, subject) := by
  rw [isAbout_iff, Effect.key, Prod.mk.injEq]

theorem merges_eq_true : Effect.merges flags = true ↔ Joins flags := by
  rw [Effect.merges, Bool.or_eq_true, decide_eq_true_eq, decide_eq_true_eq]
  rfl

theorem isSome_find? :
    (l.find? kind subject).isSome = true ↔ ∃ e ∈ l.entries, e.key = (kind, subject) := by
  simp only [find?, List.find?_isSome, isAbout_iff_key]

/-- Of the entries about one thing one is the first. -/
theorem exists_first {k : EffectKind × UInt16} (h : ∃ e ∈ es, e.key = k) :
    ∃ before e after, First k es before e after := by
  obtain ⟨e, hfound⟩ : ∃ e, es.find? (·.key = k) = some e :=
    Option.isSome_iff_exists.1 (by simpa using h)
  obtain ⟨hkey, before, after, hsplit, hearlier⟩ := List.find?_eq_some_iff_append.1 hfound
  exact ⟨before, e, after, hsplit, by simpa using hearlier, by simpa using hkey⟩

/-- Renewing changes the first entry and no other. -/
theorem renew_of_first (h : First (kind, subject) es before e after) :
    renew kind subject flags duration es = before ++ { e with duration :=
      if flags &&& Effect.extend ≠ 0 then e.duration + duration else duration } :: after := by
  obtain ⟨rfl, hearlier, hkey⟩ := h
  induction before with
  | nil => rw [List.nil_append, renew, if_pos (isAbout_iff_key.2 hkey)]; rfl
  | cons x rest ih =>
    obtain ⟨hx, hrest⟩ := List.forall_mem_cons.1 hearlier
    rw [List.cons_append, renew, if_neg fun habout => hx (isAbout_iff_key.1 habout), ih hrest,
      List.cons_append]

/-- An effect that may merge does so if it can, whether or not there is room. -/
theorem add?_of_first (hjoins : Joins flags)
    (h : First (kind, subject) l.entries before e after) :
    l.add? kind subject flags duration = some { l with entries := before ++ { e with duration :=
      if flags &&& 0x80 ≠ 0 then e.duration + duration else duration } :: after } := by
  have hfound : (l.find? kind subject).isSome = true :=
    isSome_find?.2 ⟨e, by rw [h.split]; simp, h.key⟩
  rw [add?, merges_eq_true.2 hjoins, hfound, Bool.and_self, if_pos rfl, renew_of_first h]
  rfl

/-- An effect that merges with none needs room. -/
theorem add?_of_new (hnew : Joins flags → ∀ e ∈ l.entries, e.key ≠ (kind, subject)) :
    l.add? kind subject flags duration = if l.entries.length < l.capacity then
      some { l with entries := l.entries ++ [⟨kind, flags, subject, duration⟩] } else none := by
  have hmerge : ¬(Effect.merges flags && (l.find? kind subject).isSome) = true := by
    rw [Bool.and_eq_true, merges_eq_true, isSome_find?]
    rintro ⟨hjoins, e, he, hkey⟩
    exact hnew hjoins e he hkey
  rw [add?, if_neg hmerge]

theorem adds_add? : l.Adds kind subject flags duration (l.add? kind subject flags duration) := by
  by_cases hmerge : Joins flags ∧ ∃ e ∈ l.entries, e.key = (kind, subject)
  · obtain ⟨hjoins, hfound⟩ := hmerge
    obtain ⟨before, e, after, hfirst⟩ := exists_first hfound
    rw [add?_of_first hjoins hfirst]
    split_ifs with hextend
    · exact .extended hextend hfirst (Time.toNat_add _ _)
    · have hextend : flags &&& 0x80 = 0 := not_not.1 hextend
      exact .replaced hextend (hjoins.resolve_left (not_not.2 hextend)) hfirst
  · have hnew : Joins flags → ∀ e ∈ l.entries, e.key ≠ (kind, subject) :=
      fun hjoins e he hkey => hmerge ⟨hjoins, e, he, hkey⟩
    rw [add?_of_new hnew]
    split_ifs with hroom
    · exact .appended hnew hroom
    · exact .refused hnew (Nat.le_of_not_lt hroom)

/-- Adding comes to this and to nothing else. -/
theorem adds_iff :
    l.Adds kind subject flags duration o ↔ l.add? kind subject flags duration = o := by
  constructor
  · intro h
    cases h with
    | @extended before after e longer hflags hfirst hlonger =>
      have hsum : e.duration + duration = longer :=
        Time.ext_toNat ((Time.toNat_add _ _).trans hlonger.symm)
      rw [add?_of_first (.inl hflags) hfirst, if_pos hflags, hsum]
    | replaced hextend hapart hfirst =>
      rw [add?_of_first (.inr hapart) hfirst, if_neg (not_not.2 hextend)]
    | appended hnew hroom => rw [add?_of_new hnew, if_pos hroom]
    | refused hnew hfull => rw [add?_of_new hnew, if_neg (Nat.not_lt.2 hfull)]
  · rintro rfl
    exact adds_add?

/-! ## Whole histories -/

/-- What is done to a ledger. -/
inductive Move where
  | add (kind : EffectKind) (subject : UInt16) (flags : UInt8) (duration : Time)
  | addLight (light : UInt16) (duration : Time)
  | addSpell (spell : UInt16) (duration : Time)
  | decay (index : Nat) (span : Time)
  | removeExpired
  | removeKind (kind : EffectKind)

namespace Move

/-- The ledger after a move. An effect that is refused leaves it as it was. -/
def play (l : Ledger) : Move → Ledger
  | add kind subject flags duration => (l.add? kind subject flags duration).getD l
  | addLight light duration => (l.addLight? light duration).getD l
  | addSpell spell duration => (l.addSpell? spell duration).getD l
  | decay index span => l.modifyAt index (·.decay span)
  | removeExpired => l.removeExpired
  | removeKind kind => l.removeKind kind

/-- The move makes no effect stand apart from one that is running. -/
def Merges : Move → Prop
  | add _ _ flags _ => Joins flags
  | _ => True

end Move

/-- What becomes of a ledger that began empty. -/
def ofMoves (capacity : Nat) (moves : List Move) : Ledger := moves.foldl Move.play (empty capacity)

/-- What a ledger has, and has once an effect is added, it has whether or not that is refused. -/
theorem getD_add? {P : Ledger → Prop} (h : P l)
    (hadd : ∀ l', l.add? kind subject flags duration = some l' → P l') :
    P ((l.add? kind subject flags duration).getD l) := by
  rcases hl : l.add? kind subject flags duration with _ | l'
  · exact h
  · exact hadd l' hl

/-- No move makes a ledger outgrow its capacity, or changes that. -/
theorem Bounded.play (h : l.Bounded) (v : Move) :
    (v.play l).Bounded ∧ (v.play l).capacity = l.capacity := by
  cases v with
  | add | addLight | addSpell =>
    exact getD_add? (P := fun l' => l'.Bounded ∧ l'.capacity = l.capacity) ⟨h, rfl⟩
      fun _ hadd => h.add? hadd
  | decay index span =>
    refine ⟨?_, rfl⟩
    show (l.entries.modify index (·.decay span)).length ≤ l.capacity
    rw [List.length_modify]
    exact h
  | removeExpired | removeKind => exact ⟨h.filter _, rfl⟩

theorem Bounded.foldl_play (h : l.Bounded) (moves : List Move) :
    (moves.foldl Move.play l).Bounded ∧ (moves.foldl Move.play l).capacity = l.capacity := by
  induction moves generalizing l with
  | nil => exact ⟨h, rfl⟩
  | cons v rest ih =>
    obtain ⟨hbounded, hcapacity⟩ := h.play v
    rw [List.foldl_cons, ← hcapacity]
    exact ih hbounded

/-- No two entries are about one thing. -/
def Unique (l : Ledger) : Prop := (l.entries.map Effect.key).Nodup

theorem Unique.of_map_key_eq (h : l.Unique)
    (hkeys : l'.entries.map Effect.key = l.entries.map Effect.key) : l'.Unique := by
  unfold Unique
  rwa [hkeys]

/-- An entry that is given another duration is about the same thing. -/
theorem map_key_of_first {k : EffectKind × UInt16} (h : First k es before e after) (d : Time) :
    (before ++ { e with duration := d } :: after).map Effect.key = es.map Effect.key := by
  rw [h.split, List.map_append, List.map_append, List.map_cons, List.map_cons]
  rfl

/-- An effect that merges where it can brings in no second entry about one thing. -/
theorem Unique.add? (h : l.Unique) (hjoins : Joins flags)
    (hadd : l.add? kind subject flags duration = some l') : l'.Unique := by
  cases adds_iff.2 hadd with
  | extended _ hfirst | replaced _ _ hfirst =>
    exact h.of_map_key_eq (map_key_of_first hfirst _)
  | appended hnew =>
    have habsent : (kind, subject) ∉ l.entries.map Effect.key := by
      intro hmem
      obtain ⟨e, he, hkey⟩ := List.mem_map.1 hmem
      exact hnew hjoins e he hkey
    show ((l.entries ++ [_]).map Effect.key).Nodup
    rw [List.map_append, List.map_singleton, ← List.concat_eq_append]
    exact (List.nodup_concat _ _).2 ⟨habsent, h⟩

theorem Unique.play (h : l.Unique) {v : Move} (hv : v.Merges) : (v.play l).Unique := by
  cases v with
  | add kind subject flags duration => exact getD_add? h fun _ hadd => h.add? hv hadd
  | addLight | addSpell => exact getD_add? h fun _ hadd => h.add? (.inl (by decide)) hadd
  | decay index span =>
    -- Time that is taken from an entry leaves what it is about.
    exact h.of_map_key_eq (map_modify (f := (·.decay span)) (fun _ => rfl) l.entries index)
  | removeExpired | removeKind => exact h.sublist (List.filter_sublist.map _)

theorem Unique.foldl_play (h : l.Unique) {moves : List Move} (hmoves : ∀ v ∈ moves, v.Merges) :
    (moves.foldl Move.play l).Unique := by
  induction moves generalizing l with
  | nil => exact h
  | cons v rest ih =>
    obtain ⟨hv, hrest⟩ := List.forall_mem_cons.1 hmoves
    exact ih (h.play hv) hrest

/--
Whatever has been done to a ledger that began empty, it holds no more than its capacity, which is
twenty at most. To add an effect then comes to one of four things and to nothing else: if it may
merge and something about the same thing is running, the first such entry lasts longer or has its
duration replaced, and otherwise the effect joins at the end or, where the ledger is full, is
refused. Unless an effect was made to stand apart, no two entries are about one thing.
-/
theorem add?_law (capacity : Nat) (moves : List Move) :
    (ofMoves capacity moves).entries.length ≤ min capacity 20 ∧
    (ofMoves capacity moves).capacity = min capacity 20 ∧
    (∀ kind subject flags duration o,
      (ofMoves capacity moves).Adds kind subject flags duration o ↔
        (ofMoves capacity moves).add? kind subject flags duration = o) ∧
    ((∀ v ∈ moves, v.Merges) → ((ofMoves capacity moves).entries.map Effect.key).Nodup) := by
  have hempty : (empty capacity).Bounded := Nat.zero_le _
  obtain ⟨hbounded, hcapacity⟩ := hempty.foldl_play moves
  have hunique : (empty capacity).Unique := List.nodup_nil
  refine ⟨?_, hcapacity, fun _ _ _ _ _ => adds_iff, hunique.foldl_play⟩
  calc (ofMoves capacity moves).entries.length
      ≤ (ofMoves capacity moves).capacity := hbounded
    _ = min capacity 20 := hcapacity

/-- Two spells in a ledger that has room for two, and a third that comes too late. -/
def tooMany : List Move := [.addSpell 0 ⟨7⟩, .addSpell 1 ⟨7⟩, .addSpell 2 ⟨7⟩]

/-- The third spell is refused, and all the same the second is extended, up to the longest time. -/
theorem add?_law_full :
    (∀ v ∈ tooMany, v.Merges) ∧ ((ofMoves 2 tooMany).entries.map Effect.key).Nodup ∧
      (ofMoves 2 tooMany).entries.length ≤ 2 ∧
      (ofMoves 2 tooMany).add? .spell 2 0x80 ⟨7⟩ = none ∧
      (ofMoves 2 tooMany).add? .spell 1 0x80 ⟨4294967290⟩ =
        some ⟨[⟨.spell, 0x80, 0, ⟨7⟩⟩, ⟨.spell, 0x80, 1, ⟨4294967295⟩⟩], 2⟩ := by
  have hmerges : ∀ v ∈ tooMany, v.Merges := by
    simp [tooMany, Move.Merges]
  obtain ⟨hlength, -, hadds, hunique⟩ := add?_law 2 tooMany
  have hextend : (0x80 : UInt8) &&& 0x80 ≠ 0 := by decide
  have hentries : (ofMoves 2 tooMany).entries =
      [⟨.spell, 0x80, 0, ⟨7⟩⟩] ++ ⟨.spell, 0x80, 1, ⟨7⟩⟩ :: [] := by decide
  refine ⟨hmerges, hunique hmerges, hlength, ?_, ?_⟩
  · refine (hadds _ _ _ _ _).1 (.refused (fun _ e he => ?_) (by decide))
    rw [hentries] at he
    simp only [List.cons_append, List.nil_append, List.mem_cons, List.not_mem_nil, or_false] at he
    rcases he with rfl | rfl <;> decide
  · refine (hadds _ _ _ _ _).1 (.extended hextend ⟨hentries, fun e he => ?_, rfl⟩ (by decide))
    obtain rfl := List.mem_singleton.1 he
    decide

end Ledger

end QuestLogic
