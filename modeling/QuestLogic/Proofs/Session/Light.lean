import QuestLogic.Proofs.Session.Encounter
import QuestLogic.Proofs.Session.Opening
import QuestLogic.Proofs.Session.Schedule
import QuestLogic.Proofs.Session.Spells

/-!
# How bright the light is

The light is right if it is as bright as the brightest light of the ledger, and out if there is none
(`Session.Lit`). A pass over the ledger makes it right, whatever it was before, since it looks at
every light (`Session.run_reduceLedger_lit`). Lighting a source looks at no light but that one, so
that the light is right afterwards just if none of the others is brighter
(`Session.lit_addLight_iff`); otherwise lighting it has made everything darker
(`Session.lit_addLight_iff_le`). So the light is right throughout a run just if every source that is
lit outshines the others (`Session.light_after`).
-/

namespace QuestLogic

/-- The greater of two bytes is one of them, and at most what both are. -/
instance lawfulOrderMax_byte : Std.LawfulOrderMax UInt8 := by
  have hmax : ∀ a b : UInt8, max a b = if a ≤ b then b else a := fun _ _ => rfl
  refine .of_max_le_iff (fun a b c => ?_) fun a b => ?_
  all_goals rw [hmax]
  · simp only [UInt8.le_iff_toNat_le]
    split_ifs <;> omega
  · split_ifs
    · exact .inr rfl
    · exact .inl rfl

namespace Session

variable {s t : Session} {light : UInt16} {duration : Time}

/-! ## Brightness -/

/-- The brightness grows with the time left until that is an hour. -/
theorem toNat_brightness (left : Time) :
    (brightness left).toNat = min (left.toNat * 64 / 1800) 64 := by
  unfold brightness Time.perHour
  split_ifs
  · rw [show (0x40 : UInt8).toNat = 64 from rfl]
    omega
  · rw [UInt8.toNat_ofNat']
    omega

theorem brightness_le_of_le {a b : Time} (h : a.toNat ≤ b.toNat) : brightness a ≤ brightness b := by
  rw [UInt8.le_iff_toNat_le, toNat_brightness, toNat_brightness]
  omega

/-- Nothing is brighter than a source that burns for an hour. -/
theorem brightness_le_of_hour {a b : Time} (h : Time.perHour ≤ b.toNat) :
    brightness a ≤ brightness b := by
  rw [UInt8.le_iff_toNat_le, toNat_brightness, toNat_brightness]
  unfold Time.perHour at h
  omega

/-- A source that has burnt out gives no light. -/
theorem brightness_eq_zero {left : Time} (h : left.toNat = 0) : brightness left = 0 := by
  rw [← UInt8.toNat_inj, toNat_brightness, h]
  rfl

/-- The level is that of the brightest light among some effects, or zero if there is no light. -/
structure LitBy (level : UInt8) (es : List Effect) : Prop where
  bounds : ∀ e ∈ es, e.kind = .light → brightness e.duration ≤ level
  attained : level = 0 ∨ ∃ e ∈ es, e.kind = .light ∧ brightness e.duration = level

/-- The light is as bright as the brightest light of the ledger. -/
def Lit (s : Session) : Prop := LitBy s.light s.ledger.entries

/-- It is dark unless there is a light in the ledger. -/
def Darkens (s : Session) : Prop := (∀ e ∈ s.ledger.entries, e.kind ≠ .light) → s.light = 0

theorem Lit.darkens (hs : s.Lit) : s.Darkens := by
  intro hnone
  obtain hzero | ⟨e, he, hkind, -⟩ := hs.attained
  · exact hzero
  · exact absurd hkind (hnone e he)

/-- There is a brightest light unless there is none. -/
theorem brightest?_eq_none {es : List Effect} :
    brightest? es = none ↔ ∀ e ∈ es, e.kind ≠ .light := by
  rw [brightest?, List.max?_eq_none_iff, List.map_eq_nil_iff, List.filter_eq_nil_iff]
  simp only [decide_eq_true_eq, ne_eq]

theorem litBy_brightest (es : List Effect) : LitBy ((brightest? es).getD 0) es := by
  rcases h : brightest? es with _ | level
  · exact ⟨fun e he hkind => absurd hkind (brightest?_eq_none.1 h e he), .inl rfl⟩
  · obtain ⟨hmem, hbounds⟩ := List.max?_eq_some_iff.1 h
    obtain ⟨e, he, hlevel⟩ := List.mem_map.1 hmem
    obtain ⟨he, hkind⟩ := List.mem_filter.1 he
    refine ⟨fun e he hkind => hbounds _ (List.mem_map_of_mem (List.mem_filter.2 ⟨he, ?_⟩)),
      .inr ⟨e, he, by simpa using hkind, hlevel⟩⟩
    rw [decide_eq_true_eq]
    exact hkind

/-! ## Passes -/

/-- Lights that burn out leave the brightest of the others, or darkness. -/
theorem LitBy.remaining {level : UInt8} {span : Time} {es : List Effect}
    (h : LitBy level (es.map (·.decay span))) : LitBy level (remaining span es) := by
  refine ⟨fun e he => h.bounds e ?_, ?_⟩
  · exact ((List.filter_sublist (l := es)).map _).subset he
  · obtain hzero | ⟨_, hdecayed, hkind, hlevel⟩ := h.attained
    · exact .inl hzero
    · obtain ⟨e, he, rfl⟩ := List.mem_map.1 hdecayed
      by_cases houtlasts : e.Outlasts span
      · have hleft : e ∈ es.filter (·.Outlasts span) :=
          List.mem_filter.2 ⟨he, decide_eq_true houtlasts⟩
        exact .inr ⟨e.decay span, List.mem_map_of_mem hleft, hkind, hlevel⟩
      -- The brightest light has burnt out, so that none gave any light.
      · left
        rw [← hlevel]
        refine brightness_eq_zero ?_
        rw [Effect.toNat_duration_decay]
        unfold Effect.Outlasts at houtlasts
        omega

/-- Nothing happens to the light. -/
def sameLight : Rule Session where
  leads s t := t.light = s.light
  permits _ _ := True
  refl _ := rfl
  trans h h' := h'.trans h

/-- What comes of an effect that is no light leaves the light alone. -/
theorem sameLight_aftermath (before : Time) {e : Effect} (he : e.kind ≠ .light) :
    sameLight.Obeys (aftermath before e) := by
  have hset : ∀ p on, sameLight.Obeys (setEvent p on) := fun p on =>
    obeys_onSave_of_image (fun _ _ => rfl) fun _ _ => trivial
  unfold aftermath
  split
  · exact absurd ‹_› he
  · split_ifs
    · exact hset _ _
    · exact Rule.obeys_pure _
  · split_ifs
    · exact hset _ _
    · exact Rule.obeys_pure _
  · exact Rule.obeys_pure _
  · exact Rule.obeys_pure _

theorem sameLight_decayFrom (span : Time) (done : List Effect) {rest : List Effect}
    (hrest : ∀ e ∈ rest, e.kind ≠ .light) : sameLight.Obeys (decayFrom span done rest) := by
  induction rest generalizing done with
  | nil => exact Rule.obeys_pure _
  | cons e rest ih =>
    obtain ⟨he, hrest⟩ := List.forall_mem_cons.1 hrest
    have hafter := sameLight_aftermath e.duration (e := e.decay span) he
    exact fun s => Rule.holds_of_run_eq (run_decayFrom_cons span done e rest s) rfl
      (hafter.bind (fun _ => ih _ hrest) _)

/-- A pass sets the light by all the lights of the ledger, and leaves it alone if there is none. -/
theorem light_reduceLedger (hs : ¬s.IsCutShort) (span : Time) :
    ((reduceLedger span).run s).2.light =
      (brightest? (s.ledger.entries.map (·.decay span))).getD s.light := by
  obtain ⟨q, level, -, hu⟩ := run_decayFrom_eq hs span (List.nil_append s.ledger.entries).symm
  have hrun : ((reduceLedger span).run s).2.light =
      (brightest? (s.ledger.entries.map (·.decay span))).getD level := by
    rw [reduceLedger, Step.run_bind_ok (Step.run_get s), Step.run_bind_ok hu]
    rfl
  rw [hrun]
  rcases hbright : brightest? (s.ledger.entries.map (·.decay span)) with _ | level
  all_goals rw [hbright]
  -- Effects that are no lights may set flags or end spells, but leave the light alone.
  · have hnone : ∀ e ∈ s.ledger.entries, e.kind ≠ .light := fun e he =>
      brightest?_eq_none.1 hbright (e.decay span) (List.mem_map_of_mem he)
    have hsame := (sameLight_decayFrom span [] hnone s).1
    rw [hu] at hsame
    exact hsame
  · rfl

/-- A pass goes through and makes the light right, as long as it is dark without one. -/
theorem run_reduceLedger_lit (hs : ¬s.IsCutShort) (hdark : s.Darkens) (span : Time) :
    ∃ t, (reduceLedger span).run s = (.ok (), t) ∧ t.Lit ∧ ¬t.IsCutShort := by
  obtain ⟨t, ht, hledger, hsave⟩ := run_reduceLedger hs span
  have hlight := light_reduceLedger hs span
  rw [ht] at hlight
  have hlevel : t.light = (brightest? (s.ledger.entries.map (·.decay span))).getD 0 := by
    refine hlight.trans ?_
    rcases hbright : brightest? (s.ledger.entries.map (·.decay span)) with _ | level
    all_goals rw [hbright]
    · exact hdark fun e he =>
        brightest?_eq_none.1 hbright (e.decay span) (List.mem_map_of_mem he)
    · rfl
  refine ⟨t, ht, ?_, not_isCutShort_of_save hs hsave⟩
  rw [Lit, hlevel, hledger]
  exact (litBy_brightest _).remaining

/-! ## Lightings -/

/-- What lighting a source makes of a ledger: `e` is the entry of the source. -/
structure Kindles (l l' : Ledger) (light : UInt16) (duration : Time) (e : Effect) : Prop where
  find : l'.find? .light light = some e
  lasts : duration.toNat ≤ e.duration.toNat
  /-- The other entries were there before. -/
  others : ∀ x ∈ l'.entries, x = e ∨ x ∈ l.entries
  /-- The entries that were there are left, but for one that burns longer now. -/
  kept : ∀ x ∈ l.entries, x ∈ l'.entries ∨ x.duration.toNat ≤ e.duration.toNat

theorem Kindles.mem {l l' : Ledger} {e : Effect} (h : Kindles l l' light duration e) :
    e ∈ l'.entries := List.mem_of_find?_eq_some h.find

theorem Kindles.kind {l l' : Ledger} {e : Effect} (h : Kindles l l' light duration e) :
    e.kind = .light := by
  have habout : e.isAbout .light light = true :=
    List.find?_some (p := fun e : Effect => e.isAbout .light light) h.find
  exact (Ledger.isAbout_iff.1 habout).1

/-- Whatever stands in place of an element, the others are there. -/
theorem mem_of_mem_replaced {before rest : List Effect} {a b x : Effect}
    (h : x ∈ before ++ a :: rest) : x = a ∨ x ∈ before ++ b :: rest := by
  obtain hbefore | hrest := List.mem_append.1 h
  · exact .inr (List.mem_append_left _ hbefore)
  · obtain rfl | hrest := List.mem_cons.1 hrest
    · exact .inl rfl
    · exact .inr (List.mem_append_right _ (List.mem_cons_of_mem b hrest))

/-- A source that burns when it is lit burns longer. -/
theorem exists_kindles_longer {l : Ledger} (hfind : (l.find? .light light).isSome = true)
    (duration : Time) : ∃ e, Kindles l
      { l with entries := Ledger.renew .light light Effect.extend duration l.entries }
      light duration e := by
  rw [Ledger.find?, List.find?_isSome] at hfind
  obtain ⟨before, e, rest, hentries, hbefore, habout, hrenew⟩ :=
    Ledger.renew_eq_append .light light Effect.extend duration hfind
  rw [if_pos (by decide)] at hrenew
  let lit : Effect := { e with duration := e.duration + duration }
  -- The sum stops at the greatest time there is, which is no less than either of the two.
  have hle := duration.toNat_le
  have hle' := e.duration.toNat_le
  have hsum : lit.duration.toNat = min (e.duration.toNat + duration.toNat) 4294967295 :=
    Time.toNat_add _ _
  refine ⟨lit, ?_, by omega, fun x hx => ?_, fun x hx => ?_⟩
  · rw [Ledger.find?, hrenew, List.find?_append, List.find?_eq_none.2 hbefore, Option.none_or]
    exact List.find?_cons_of_pos habout
  · rw [hrenew] at hx
    rw [hentries]
    exact mem_of_mem_replaced hx
  · rw [hentries] at hx
    rw [hrenew]
    obtain rfl | hkept := mem_of_mem_replaced hx
    · exact .inr (by omega)
    · exact .inl hkept

/-- A source that does not burn yet burns from now on. -/
theorem kindles_anew {l : Ledger} (hnone : l.find? .light light = none) (duration : Time) :
    Kindles l { l with entries := l.entries ++ [⟨.light, Effect.extend, light, duration⟩] }
      light duration ⟨.light, Effect.extend, light, duration⟩ := by
  refine ⟨?_, Nat.le_refl _, fun x hx => ?_, fun x hx => .inl (List.mem_append_left _ hx)⟩
  · rw [Ledger.find?, List.find?_append, show l.entries.find? _ = none from hnone, Option.none_or]
    exact List.find?_cons_of_pos (Ledger.isAbout_iff.2 ⟨rfl, rfl⟩)
  · obtain hold | hnew := List.mem_append.1 hx
    · exact .inr hold
    · exact .inl (List.mem_singleton.1 hnew)

theorem exists_kindles {l l' : Ledger} (h : l.addLight? light duration = some l') :
    ∃ e, Kindles l l' light duration e := by
  obtain ⟨-, hfind, rfl⟩ | ⟨hnew, -, rfl⟩ := Ledger.add?_cases h
  · exact exists_kindles_longer hfind duration
  · have hnone : l.find? .light light = none := by
      rw [← Option.not_isSome_iff_eq_none]
      exact fun hfound => hnew (Bool.and_eq_true_iff.2 ⟨by decide, hfound⟩)
    exact ⟨_, kindles_anew hnone duration⟩

/-- A lighting that finds no room changes nothing. -/
theorem run_addLight_of_none (h : s.ledger.addLight? light duration = none) :
    (addLight light duration).run s = (.error .ledgerFull, s) :=
  Step.run_update_error (by rw [h])

/-- One that finds room goes through. -/
theorem run_addLight_of_some {l : Ledger} (h : s.ledger.addLight? light duration = some l) :
    ∃ t, (addLight light duration).run s = (.ok (), t) ∧ t.ledger = l :=
  ⟨_, Step.run_update_ok (by rw [h]), rfl⟩

/-- A lighting that goes through makes the light as bright as the source, and changes nothing else
but the ledger. -/
theorem addLight_eq_ok (h : (addLight light duration).run s = (.ok (), t)) :
    s.ledger.addLight? light duration = some t.ledger ∧ ∃ e,
      Kindles s.ledger t.ledger light duration e ∧ t.light = brightness e.duration ∧
      t.save = s.save := by
  rcases hadd : s.ledger.addLight? light duration with _ | l
  · rw [run_addLight_of_none hadd] at h
    cases h
  · obtain ⟨e, he⟩ := exists_kindles hadd
    rw [addLight, Step.run_update_ok (by rw [hadd])] at h
    cases h
    refine ⟨rfl, e, he, ?_, rfl⟩
    dsimp only
    rw [he.find]
    rfl

/-- After a lighting the light is right just if no other light is brighter than the source. -/
theorem lit_addLight_iff (h : (addLight light duration).run s = (.ok (), t)) :
    t.Lit ↔ ∀ x ∈ t.ledger.entries, x.kind = .light → brightness x.duration ≤ t.light := by
  obtain ⟨-, e, he, hlight, -⟩ := addLight_eq_ok h
  exact ⟨LitBy.bounds, fun hbounds => ⟨hbounds, .inr ⟨e, he.mem, he.kind, hlight.symm⟩⟩⟩

/-- A lighting leaves the light right just if it does not make it darker. -/
theorem lit_addLight_iff_le (hs : s.Lit) (h : (addLight light duration).run s = (.ok (), t)) :
    t.Lit ↔ s.light ≤ t.light := by
  obtain ⟨-, e, he, hlight, -⟩ := addLight_eq_ok h
  rw [lit_addLight_iff h]
  constructor
  · intro hbounds
    obtain hzero | ⟨x, hx, hkind, hlevel⟩ := hs.attained
    · rw [hzero]
      exact UInt8.zero_le
    · rw [← hlevel]
      obtain hkept | hlonger := he.kept x hx
      · exact hbounds x hkept hkind
      · rw [hlight]
        exact brightness_le_of_le hlonger
  · intro hle x hx hkind
    obtain rfl | hold := he.others x hx
    · rw [hlight]
      exact UInt8.le_refl _
    · exact UInt8.le_trans (hs.bounds x hold hkind) hle

/-! ## Runs of lightings and passes -/

/-- The move lights a source or passes over the ledger. -/
def Move.OfLight : Move → Prop
  | .addLight _ _ | .reduceLedger _ => True
  | _ => False

/-- If the move lights a source, then no light is brighter than that source afterwards. -/
def Outshines (s : Session) : Move → Prop
  | .addLight light duration => ∀ l e, s.ledger.addLight? light duration = some l →
      l.find? .light light = some e →
      ∀ x ∈ l.entries, x.kind = .light → brightness x.duration ≤ brightness e.duration
  | _ => True

/-- Every source that is lit in a run outshines the others. -/
def AllOutshine : List Move → Session → Prop
  | [], _ => True
  | v :: rest, s => s.Outshines v ∧ AllOutshine rest (v.play.run s).2

/-- A source that is lit for an hour outshines the others, whatever else burns. -/
theorem outshines_of_hour (h : Time.perHour ≤ duration.toNat) (s : Session) (light : UInt16) :
    s.Outshines (.addLight light duration) := by
  intro l e hadd hfind x _ _
  obtain ⟨e', he'⟩ := exists_kindles hadd
  obtain rfl : e' = e := Option.some.inj (he'.find.symm.trans hfind)
  exact brightness_le_of_hour (Nat.le_trans h he'.lasts)

/-- A lighting leaves it dark unless there is a light in the ledger. -/
theorem darkens_addLight (hs : ¬s.IsCutShort) (hdark : s.Darkens) (light : UInt16)
    (duration : Time) :
    ¬((addLight light duration).run s).2.IsCutShort ∧
      ((addLight light duration).run s).2.Darkens := by
  rcases h : s.ledger.addLight? light duration with _ | l
  · rw [run_addLight_of_none h]
    exact ⟨hs, hdark⟩
  · obtain ⟨t, ht, -⟩ := run_addLight_of_some h
    obtain ⟨-, e, he, -, hsave⟩ := addLight_eq_ok ht
    rw [ht]
    refine ⟨fun hcut => hs ?_, fun hnone => absurd he.kind (hnone e he.mem)⟩
    unfold IsCutShort at hcut ⊢
    rwa [hsave] at hcut

/-- From a session whose light is right, it is right after a lighting just if the source that is
lit outshines the others. -/
theorem lit_addLight_iff_outshines (hs : s.Lit) (light : UInt16) (duration : Time) :
    ((addLight light duration).run s).2.Lit ↔ s.Outshines (.addLight light duration) := by
  rw [Outshines]
  rcases h : s.ledger.addLight? light duration with _ | l
  · rw [run_addLight_of_none h]
    exact iff_of_true hs fun l e hl => by cases hl
  · obtain ⟨t, ht, rfl⟩ := run_addLight_of_some h
    obtain ⟨-, e, he, hlight, -⟩ := addLight_eq_ok ht
    rw [ht, lit_addLight_iff ht, hlight]
    constructor
    · intro hbounds l' e' hl' hfind
      cases hl'
      obtain rfl : e = e' := Option.some.inj (he.find.symm.trans hfind)
      exact hbounds
    · exact fun hbounds => hbounds _ e rfl he.find

/-- A lighting or a pass leaves it dark unless there is a light in the ledger. -/
theorem darkens_play (hs : ¬s.IsCutShort) (hdark : s.Darkens) {v : Move} (hv : v.OfLight) :
    ¬(v.play.run s).2.IsCutShort ∧ (v.play.run s).2.Darkens := by
  cases v with
  | addLight light duration => exact darkens_addLight hs hdark light duration
  | reduceLedger span =>
    obtain ⟨t, ht, hlit, hcut⟩ := run_reduceLedger_lit hs hdark span
    rw [Move.play, ht]
    exact ⟨hcut, hlit.darkens⟩
  | _ => exact hv.elim

/-- From a session whose light is right, it is right after a lighting or a pass just if the source
that is lit, if any, outshines the others. -/
theorem lit_play_iff (hcut : ¬s.IsCutShort) (hs : s.Lit) {v : Move} (hv : v.OfLight) :
    (v.play.run s).2.Lit ↔ s.Outshines v := by
  cases v with
  | addLight light duration => exact lit_addLight_iff_outshines hs light duration
  | reduceLedger span =>
    obtain ⟨t, ht, hlit, -⟩ := run_reduceLedger_lit hcut hs.darkens span
    rw [Move.play, ht]
    exact iff_of_true hlit trivial
  | _ => exact hv.elim

/-- Whatever lightings and passes there are, it is dark unless there is a light in the ledger. -/
theorem darkens_after {vs : List Move} (hvs : ∀ v ∈ vs, v.OfLight) (hs : ¬s.IsCutShort)
    (hdark : s.Darkens) : ¬(after vs s).IsCutShort ∧ (after vs s).Darkens := by
  induction vs generalizing s with
  | nil => exact ⟨hs, hdark⟩
  | cons v rest ih =>
    obtain ⟨hv, hrest⟩ := List.forall_mem_cons.1 hvs
    obtain ⟨hs', hdark'⟩ := darkens_play hs hdark hv
    exact ih hrest hs' hdark'

/-- Throughout a run of lightings and passes the light is right just if every source that is lit
outshines the others. -/
theorem throughout_lit_iff {vs : List Move} (hvs : ∀ v ∈ vs, v.OfLight) (hcut : ¬s.IsCutShort)
    (hs : s.Lit) : Throughout Lit vs s ↔ AllOutshine vs s := by
  induction vs generalizing s with
  | nil => exact iff_of_true hs trivial
  | cons v rest ih =>
    obtain ⟨hv, hrest⟩ := List.forall_mem_cons.1 hvs
    -- Where the light is right after the first move, the rest of the run begins as this one did.
    obtain ⟨hcut', -⟩ := darkens_play hcut hs.darkens hv
    rw [Throughout, AllOutshine]
    constructor
    · rintro ⟨-, h⟩
      exact ⟨(lit_play_iff hcut hs hv).1 h.start, (ih hrest hcut' h.start).1 h⟩
    · rintro ⟨houtshines, h⟩
      exact ⟨hs, (ih hrest hcut' ((lit_play_iff hcut hs hv).2 houtshines)).2 h⟩

/-- If every source is lit for an hour at least, then all outshine the others. -/
theorem allOutshine_of_hours {vs : List Move}
    (h : ∀ light duration, .addLight light duration ∈ vs → Time.perHour ≤ duration.toNat) :
    AllOutshine vs s := by
  induction vs generalizing s with
  | nil => trivial
  | cons v rest ih =>
    refine ⟨?_, ih fun light duration hmem => h light duration (List.mem_cons_of_mem v hmem)⟩
    cases v with
    | addLight light duration =>
      exact outshines_of_hour (h light duration List.mem_cons_self) s light
    | _ => trivial

/--
From a session in which nothing burns, the light is right throughout lightings and passes just if
every source that is lit outshines the others, as it does if it burns for an hour at least. Whatever
came before, a pass goes through and makes the light right; and a lighting in a session whose light
is right leaves it right just if it does not darken it.
-/
theorem light_after {m : Image} (hsave : s.save = some m) (hm : Layout.size ≤ m.size)
    (hempty : s.ledger.entries = []) (hdark : s.light = 0) {vs : List Move}
    (hvs : ∀ v ∈ vs, v.OfLight) :
    (Throughout Lit vs s ↔ AllOutshine vs s) ∧
    ((∀ light duration, .addLight light duration ∈ vs → Time.perHour ≤ duration.toNat) →
      Throughout Lit vs s) ∧
    (∀ span, ∃ t, (reduceLedger span).run (after vs s) = (.ok (), t) ∧ t.Lit) ∧
    ∀ light duration t, (addLight light duration).run (after vs s) = (.ok (), t) →
      (after vs s).Lit → (t.Lit ↔ (after vs s).light ≤ t.light) := by
  have hcut : ¬s.IsCutShort := not_isCutShort hsave hm
  have hlit : s.Lit := by
    refine ⟨fun e he => ?_, .inl hdark⟩
    rw [hempty] at he
    exact absurd he List.not_mem_nil
  have hthroughout := throughout_lit_iff hvs hcut hlit
  refine ⟨hthroughout, fun hhours => hthroughout.2 (allOutshine_of_hours hhours), fun span => ?_,
    fun light duration t ht hlit => lit_addLight_iff_le hlit ht⟩
  obtain ⟨hcut', hdark'⟩ := darkens_after hvs hcut hlit.darkens
  obtain ⟨t, ht, htlit, -⟩ := run_reduceLedger_lit hcut' hdark' span
  exact ⟨t, ht, htlit⟩

/-- A torch, a second torch and a pass in which the first burns out. -/
theorem light_after_torches :
    Throughout Lit [.addLight 0 ⟨3600⟩, .addLight 1 ⟨5400⟩, .reduceLedger ⟨3600⟩] onBlank := by
  refine (light_after (m := .zeroed Layout.size) rfl Image.full_zeroed rfl rfl ?_).2.1 ?_
  · simp [Move.OfLight]
  · intro light duration hmem
    have hlit : light = 0 ∧ duration = ⟨3600⟩ ∨ light = 1 ∧ duration = ⟨5400⟩ := by
      simpa using hmem
    obtain ⟨-, rfl⟩ | ⟨-, rfl⟩ := hlit
    all_goals decide

/-- Lighting a second source that burns for half an hour darkens what the first lit. -/
theorem light_after_darkened :
    ∃ t u, (addLight 0 ⟨3600⟩).run onBlank = (.ok (), t) ∧ t.Lit ∧ t.light = 0x40 ∧
      (addLight 1 ⟨900⟩).run t = (.ok (), u) ∧ u.light = 0x20 ∧ ¬u.Lit := by
  have hfirst : Effect.mk .light Effect.extend 0 ⟨3600⟩ ∈
      [Effect.mk .light Effect.extend 0 ⟨3600⟩] := List.mem_singleton_self _
  refine ⟨_, _, rfl, ⟨?_, .inr ⟨_, hfirst, rfl, rfl⟩⟩, rfl, rfl, rfl, fun hlit => ?_⟩
  · intro e he _
    obtain rfl := List.mem_singleton.1 he
    decide
  · exact absurd (hlit.bounds _ List.mem_cons_self rfl) (by decide)

end Session

end QuestLogic
