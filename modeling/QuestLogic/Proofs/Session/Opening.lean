import QuestLogic.Proofs.Save.Stash
import QuestLogic.Proofs.Session.Company
import QuestLogic.Proofs.Session.Schedule

/-!
# What the parts of a beginning write

Over an image that reaches to the end of the flags the parts of a beginning go through, as far as
the chapter is one of the story and the members of the roster are of the cast, and each of them
tells what it writes: the chapter and the flags of what runs out (`Session.run_daybreak`), a purse
(`Session.run_setAside`), the flag of the chapter (`Session.run_settlePurse`), and the flags of the
improvements (`Session.run_rally`).
-/

namespace QuestLogic.Session

open Image (allTo unseenFlag unseenFlags)

variable {s t : Session} {m : Image} {c : Chapter}

theorem not_isCutShort (hsave : s.save = some m) (hm : Layout.size ≤ m.size) : ¬s.IsCutShort := by
  rintro ⟨m', hm', hlt⟩
  rw [hsave, Option.some.injEq] at hm'
  rw [← hm'] at hlt
  exact absurd hlt (Nat.not_lt.2 hm)

/-! ## The day breaks -/

/-- The time that so many rounds take. -/
def expiryTime (n : Nat) : Time := Time.total (List.replicate n expirySpan)

/-- Rounds go through, leave what outlasts each of them, and write no flag but those of effects that
do not outlast them. -/
theorem run_expire (hs : ¬s.IsCutShort) (n : Nat) :
    ∃ t ws, (expire n).run s = (.ok (), t) ∧ t.save = s.save.map (·.withFlags ws) ∧
      (∀ w ∈ ws, w ∈ flagsOf (s.ledger.entries.filter (¬·.Outlasts (expiryTime n)))) ∧
      t.ledger.entries =
        (List.replicate n expirySpan).foldl (fun es d => remaining d es) s.ledger.entries := by
  induction n generalizing s with
  | zero => exact ⟨s, [], rfl, Option.map_id'.symm, fun w hw => (by cases hw), rfl⟩
  | succ n ih =>
    obtain ⟨u, hu, hledger, hsave⟩ := run_reduceLedger hs expirySpan
    obtain ⟨t, ws, ht, htsave, hws, htledger⟩ := ih (not_isCutShort_of_save hs hsave)
    rw [hledger] at hws htledger
    refine ⟨t, _ ++ ws, by rw [expire, Step.run_bind_ok hu, ht],
      htsave.trans (hsave ▸ map_withFlags_append _ ws s.save), fun w hw => ?_, htledger⟩
    rcases List.mem_append.1 hw with hfirst | hlater
    · exact mem_flagsOf_add (.inl hfirst)
    · exact mem_flagsOf_add (.inr (hws w hlater))

/-- The image when the day has broken. -/
def dawned (m : Image) (c : Chapter) (ws : List (EventPtr × Bool)) : Image :=
  ((m.putBytes Layout.chapter (bytes16 c.val.toUInt16)).withFlags ws).withFlags
    (allTo false FlagRange.uniqueEncounter.pointers)

/-- The day breaks. Besides the flags that it clears it writes none but those of effects that run
out, and what outlasts the rounds is left. -/
theorem run_daybreak (hsave : s.save = some m) (hm : Layout.size ≤ m.size) (c : Chapter)
    (start : ChapterStart) :
    ∃ t ws, (daybreak c start).run s = (.ok (), t) ∧ t.save = some (dawned m c ws) ∧
      (∀ w ∈ ws,
        w ∈ flagsOf (s.ledger.entries.filter (¬·.Outlasts (expiryTime expiryRounds)))) ∧
      t.ledger.entries = remaining (expiryTime expiryRounds) s.ledger.entries := by
  have hfit : m.Fits Layout.chapter (bytes16 c.val.toUInt16) := .inr (by
    rw [length_bytes16, Layout.chapter]
    rw [Layout.size] at hm
    omega)
  have hput := (Image.writes_writeU16 Layout.chapter c.val.toUInt16).run_of_fits hfit
  have hset : (setChapter c).run s = (.ok (), { s with
      chapter := c, save := some (m.putBytes Layout.chapter (bytes16 c.val.toUInt16)) }) := by
    rw [setChapter, Step.run_bind_ok (Step.run_modify _ s),
      run_onSave_some (s := { s with chapter := c }) hsave, hput]
  let u : Session := { s with
    chapter := c, save := some (m.putBytes Layout.chapter (bytes16 c.val.toUInt16)),
    zone := start.zone, clock := s.clock.jump (morning s.clock.now start.timeElapsed) }
  have hu : ¬u.IsCutShort := not_isCutShort (s := u) rfl (by rwa [Image.size_putBytes])
  obtain ⟨v, ws, hv, hvsave, hws, hvledger⟩ := run_expire hu expiryRounds
  have hvsome : v.save =
      some ((m.putBytes Layout.chapter (bytes16 c.val.toUInt16)).withFlags ws) := hvsave
  have hfull : Layout.size ≤
      ((m.putBytes Layout.chapter (bytes16 c.val.toUInt16)).withFlags ws).size := by
    rwa [Image.size_withFlags, Image.size_putBytes]
  have hclear : Image.clearUnique.run
      ((m.putBytes Layout.chapter (bytes16 c.val.toUInt16)).withFlags ws) =
        (.ok (), dawned m c ws) := Image.run_clearUnique hfull
  rw [expiryRounds, List.replicate_succ, List.foldl_cons, foldl_remaining,
    ← List.replicate_succ] at hvledger
  refine ⟨{ v with save := some (dawned m c ws) }, ws, ?_, rfl, hws, hvledger⟩
  rw [daybreak, Step.run_bind_ok hset, Step.run_bind_ok (Step.run_modify _ _),
    Step.run_bind_ok (Step.run_modify _ _), Step.run_bind_ok hv, run_onSave_some hvsome, hclear]

/-! ## The purse -/

/-- The purse of a chapter of the story is set aside before the flags. -/
theorem run_setAside (hsave : s.save = some m) (hm : Layout.size ≤ m.size)
    (hc : c.inStory = true) :
    ∃ offset bs, (setAside c).run s = (.ok (), { s with save := some (m.putBytes offset bs) }) ∧
      Layout.stash ≤ offset ∧ offset + bs.length ≤ Layout.simpleEvents := by
  unfold setAside
  split_ifs with hfirst
  · have hoffset : Image.stashOffset c = .ok (Layout.stash + (c.val.toNat - 1) * 4) := if_pos hc
    obtain ⟨hlow, hhigh⟩ := Image.stashOffset_within hoffset
    have hfit : m.Fits (Layout.stash + (c.val.toNat - 1) * 4) (bytes32 s.party.gold.val) :=
      .inr (Nat.le_trans hhigh (Nat.le_trans (by decide) hm))
    have hput := (Image.writes_writeU32 _ s.party.gold.val).run_of_fits hfit
    refine ⟨_, bytes32 s.party.gold.val, ?_, hlow, hhigh⟩
    rw [Step.run_bind_ok (Step.run_get s), run_onSave_some hsave, Image.setStash, hoffset]
    dsimp only
    rw [hput]
  · refine ⟨Layout.stash, [], ?_, Nat.le_refl _, by decide⟩
    rw [Step.run_pure, Image.putBytes_nil, ← hsave]

/-- Only for a chapter of the story is a purse set aside. -/
theorem inStory_of_setAside (hsave : s.save = some m) {u : Unit}
    (h : (setAside c).run s = (.ok u, t)) : c.inStory = true := by
  unfold setAside at h
  split_ifs at h with hfirst
  · rw [Step.run_bind_ok (Step.run_get s), run_onSave_some hsave] at h
    rcases hstash : (Image.setStash c s.party.gold).run m with ⟨e | u', m'⟩
    · rw [hstash] at h
      cases h
    · obtain ⟨offset, hoffset, -⟩ := Image.setStash_eq_ok hstash
      unfold Image.stashOffset at hoffset
      split_ifs at hoffset with hc
      exact hc
  · rw [Decidable.not_not.1 hfirst]
    rfl

/-- The flag that the beginning of a chapter writes, if it writes one. -/
def chapterFlags (c : Chapter) : List (EventPtr × Bool) :=
  if c.val = 3 then [(chapter3Flag, false)] else if c.val = 7 then [(chapter7Flag, true)] else []

/-- The third chapter clears a flag, the seventh sets one, and no other chapter writes any. -/
theorem mem_chapterFlags {w : EventPtr × Bool} : w ∈ chapterFlags c ↔
    c.val = 3 ∧ w = (chapter3Flag, false) ∨ c.val = 7 ∧ w = (chapter7Flag, true) := by
  have hapart : c.val = 3 → c.val ≠ 7 := fun h3 => by rw [h3]; decide
  unfold chapterFlags
  split_ifs with h3 h7
  · rw [List.mem_singleton, and_iff_right h3, or_iff_left fun h => hapart h3 h.1]
  · rw [List.mem_singleton, and_iff_right h7, or_iff_right fun h => h3 h.1]
  · exact iff_of_false List.not_mem_nil fun h => h.elim (fun h => h3 h.1) fun h => h7 h.1

/-- From the fifth to the eighth chapter the purse of the chapter before is there to be read. -/
theorem exists_viewStash (hsave : s.save = some m) (hm : Layout.size ≤ m.size)
    (hrange : (5 ≤ c.val && c.val ≤ 8) = true) :
    ∃ gold, (Step.view fun s : Session => s.readSave .none (·.stashed ⟨c.val - 1⟩)).run s =
      (.ok gold, s) := by
  rw [Bool.and_eq_true, decide_eq_true_eq, decide_eq_true_eq] at hrange
  have hlow : 5 ≤ c.val.toNat := UInt8.le_iff_toNat_le.1 hrange.1
  have hhigh : c.val.toNat ≤ 8 := UInt8.le_iff_toNat_le.1 hrange.2
  have hval : (c.val - 1).toNat = c.val.toNat - 1 :=
    UInt8.toNat_sub_of_le _ _ (UInt8.le_iff_toNat_le.2 (Nat.le_trans (by decide) hlow))
  have hstory : Chapter.inStory ⟨c.val - 1⟩ = true := by
    rw [Chapter.inStory, Bool.and_eq_true, decide_eq_true_eq, decide_eq_true_eq, hval]
    omega
  have hoffset : Image.stashOffset ⟨c.val - 1⟩ =
      .ok (Layout.stash + ((c.val - 1).toNat - 1) * 4) := if_pos hstory
  have hend := Image.stashOffset_le hoffset
  rw [Step.run_view, readSave, hsave]
  dsimp only
  rw [Image.stashed_of_offset hoffset, Image.readU32_of_le (by omega)]
  exact ⟨_, rfl⟩

/-- The purse is settled, and the flag of the chapter written. -/
theorem run_settlePurse (hsave : s.save = some m) (hm : Layout.size ≤ m.size) (c : Chapter) :
    ∃ gold, (settlePurse c).run s = (.ok (), { s with
      party.gold := gold, save := some (m.withFlags (chapterFlags c)) }) := by
  have hevent : ∀ (gold : Royals) p on, (setEvent p on).run { s with party.gold := gold } =
      (.ok (), { s with party.gold := gold, save := some (m.withFlags [(p, on)]) }) := by
    intro gold p on
    have hsound := not_isCutShort (s := { s with party.gold := gold }) hsave hm
    rw [run_setEvent hsound]
    dsimp only
    rw [hsave]
    rfl
  have hset : ∀ gold, (setGold gold).run s = (.ok (), { s with party.gold := gold }) :=
    fun _ => rfl
  have hkeep : ∀ gold : Royals, { s with party.gold := gold } =
      { s with party.gold := gold, save := some m } := fun _ => by rw [← hsave]
  unfold settlePurse
  split_ifs with h3 h4 hrange h7
  · refine ⟨s.party.gold, ?_⟩
    rw [chapterFlags, if_pos h3]
    exact hevent s.party.gold _ _
  · refine ⟨.none, ?_⟩
    rw [chapterFlags, if_neg h3, if_neg (by rw [h4]; decide), Image.withFlags_nil, hset, hkeep]
  · obtain ⟨gold, hgold⟩ := exists_viewStash hsave hm hrange
    refine ⟨gold, ?_⟩
    rw [chapterFlags, if_neg h3, if_pos h7, Step.run_bind_ok hgold, Step.run_bind_ok (hset gold)]
    exact hevent gold _ _
  · obtain ⟨gold, hgold⟩ := exists_viewStash hsave hm hrange
    refine ⟨gold, ?_⟩
    rw [chapterFlags, if_neg h3, if_neg h7, Step.run_bind_ok hgold, Step.run_bind_ok (hset gold),
      Image.withFlags_nil, Step.run_pure, hkeep]
  · refine ⟨s.party.gold, ?_⟩
    have h7 : c.val ≠ 7 := fun h7 => hrange (by rw [h7]; decide)
    rw [chapterFlags, if_neg h3, if_neg h7, Image.withFlags_nil, Step.run_pure, ← hsave]

/-! ## The party recovers -/

/-- Improvements are looked at character by character. -/
theorem clearUnseen_cons (id : CharId) (rest : List CharId) :
    clearUnseen (id :: rest) = (do
      changeMember id Character.see
      onSave (Image.clearUnseen id)
      clearUnseen rest) := rfl

/-- The improvements of members of the cast are looked at, and their flags cleared. -/
theorem run_clearUnseen (hsave : s.save = some m) (hm : Layout.size ≤ m.size) {ids : List CharId}
    (hids : ∀ id ∈ ids, id.isCast = true ∧ id ∈ s.party.roster.map (·.id)) :
    (clearUnseen ids).run s = (.ok (), { s with
      party := s.party.seeEach ids
      save := some (m.withFlags (allTo false (ids.flatMap unseenFlags))) }) := by
  induction ids generalizing s m with
  | nil =>
    change (Except.ok (), s) = (.ok (), { s with save := some m })
    rw [← hsave]
  | cons id rest ih =>
    obtain ⟨⟨hcast, hmember⟩, hrest⟩ := List.forall_mem_cons.1 hids
    obtain ⟨c, hc⟩ := Party.exists_member hmember
    have hsee : (changeMember id Character.see).run s =
        (.ok (), { s with party := s.party.modifyMember id .see }) :=
      Step.run_update_ok (by rw [hc]; rfl)
    have hclear : (onSave (Image.clearUnseen id)).run
        { s with party := s.party.modifyMember id .see } = (.ok (), { s with
          party := s.party.modifyMember id .see
          save := some (m.withFlags (allTo false (unseenFlags id))) }) := by
      rw [run_onSave_some (s := { s with party := s.party.modifyMember id .see }) hsave,
        Image.run_clearUnseen hm hcast]
    have hsame := (Party.sameCompany_modifyMember s.party id (f := Character.see) fun _ => rfl).ids
    rw [clearUnseen_cons, Step.run_bind_ok hsee, Step.run_bind_ok hclear, ih rfl]
    · rw [List.flatMap_cons, Image.allTo_append, Image.withFlags_append]
      rfl
    · rwa [Image.size_withFlags]
    · exact fun id' hid' => ⟨(hrest id' hid').1, hsame ▸ (hrest id' hid').2⟩

/-- The party recovers if its members are of the cast. -/
theorem run_rally (hsave : s.save = some m) (hm : Layout.size ≤ m.size)
    (hcast : ∀ id ∈ s.party.roster.map (·.id), id.isCast = true) :
    rally.run s = (.ok (), { s with
      party := s.party.refreshed
      save := some (m.withFlags
        (allTo false ((s.party.roster.map (·.id)).flatMap unseenFlags))) }) := by
  have hsame := (Party.sameCompany_mapActive s.party (f := Character.restore) fun _ => rfl).ids
  have hids : ∀ id ∈ s.party.roster.map (·.id), id.isCast = true ∧
      id ∈ (s.mapActive Character.restore).party.roster.map (·.id) :=
    fun id hid => ⟨hcast id hid, by rwa [← hsame] at hid⟩
  have hrun := run_clearUnseen (s := s.mapActive Character.restore) hsave hm hids
  rw [rally, Step.run_bind_ok (Step.run_modify _ s), Step.run_bind_ok (Step.run_get _)]
  change (clearUnseen ((s.party.mapActive Character.restore).roster.map (·.id))).run _ = _
  rw [hsame, hrun]
  rfl

/-- Only members of the cast have improvements to look at. -/
theorem isCast_of_clearUnseen (hsave : s.save = some m) {ids : List CharId} {u : Unit}
    (h : (clearUnseen ids).run s = (.ok u, t)) : ∀ id ∈ ids, id.isCast = true := by
  induction ids generalizing s m with
  | nil => exact fun id hid => absurd hid List.not_mem_nil
  | cons id rest ih =>
    obtain ⟨_, a, hsee, h⟩ := Step.run_bind_eq_ok h
    obtain ⟨_, b, hclear, h⟩ := Step.run_bind_eq_ok h
    have hasave : a.save = some m := by
      rcases hmember : s.party.member id with e | c
      · rw [changeMember, Step.run_update_error (by rw [hmember]; rfl)] at hsee
        cases hsee
      · rw [changeMember, Step.run_update_ok (by rw [hmember]; rfl)] at hsee
        cases hsee
        exact hsave
    rw [run_onSave_some hasave] at hclear
    rcases hrun : (Image.clearUnseen id).run m with ⟨e | _, m'⟩
    · rw [hrun] at hclear
      cases hclear
    · rw [hrun] at hclear
      cases hclear
      exact List.forall_mem_cons.2 ⟨Image.isCast_of_clearUnseen hrun, ih rfl h⟩

/-- Only a party whose members are of the cast recovers. -/
theorem isCast_of_rally (hsave : s.save = some m) {u : Unit} (h : rally.run s = (.ok u, t)) :
    ∀ id ∈ s.party.roster.map (·.id), id.isCast = true := by
  have hsame := (Party.sameCompany_mapActive s.party (f := Character.restore) fun _ => rfl).ids
  rw [rally, Step.run_bind_ok (Step.run_modify _ s), Step.run_bind_ok (Step.run_get _)] at h
  rw [← hsame]
  exact isCast_of_clearUnseen (s := s.mapActive Character.restore) hsave h

end QuestLogic.Session
