import QuestLogic.Proofs.Session.Opening

/-!
# A chapter that has begun

`Session.Begun` lists what holds once a chapter has begun, and `Session.transition_begun` says that
it holds of every chapter that begins without anything being told. The parts of a beginning write
one after the other (`Session.opened`), so that a bit has the value that the last part writes to it:
every flag that a beginning is to clear is clear in the end, and every other bit is as it was.
-/

namespace QuestLogic.Session

open Image (allTo unseenFlag unseenFlags)

variable {s t : Session} {m : Image} {c : Chapter}

/-- The image when a chapter has begun. -/
def opened (m : Image) (c : Chapter) (ws : List (EventPtr × Bool)) (offset : Nat)
    (bs : List UInt8) (ids : List CharId) : Image :=
  (((dawned m c ws).putBytes offset bs).withFlags (chapterFlags c)).withFlags
    (allTo false (ids.flatMap unseenFlags))

section Opened

variable {ws : List (EventPtr × Bool)} {offset : Nat} {bs : List UInt8} {ids : List CharId}
  {p : EventPtr} {l : Nat × Nat}

@[simp] theorem size_dawned (m : Image) (c : Chapter) (ws : List (EventPtr × Bool)) :
    (dawned m c ws).size = m.size := by
  rw [dawned, Image.size_withFlags, Image.size_withFlags, Image.size_putBytes]

@[simp] theorem size_opened (m : Image) (c : Chapter) (ws : List (EventPtr × Bool)) (offset : Nat)
    (bs : List UInt8) (ids : List CharId) : (opened m c ws offset bs ids).size = m.size := by
  rw [opened, Image.size_withFlags, Image.size_withFlags, Image.size_putBytes, size_dawned]

/-- The flags of the members of the cast are among those of all characters. -/
theorem mem_unseen (hcast : ∀ id ∈ ids, id.isCast = true) (hp : p ∈ ids.flatMap unseenFlags) :
    p ∈ FlagRange.skillImprovement.pointers := by
  obtain ⟨id, hid, hp⟩ := List.mem_flatMap.1 hp
  exact Image.mem_unseenFlags (hcast id hid) hp

/-- The flag of a chapter is none of the others that a beginning clears. -/
theorem chapterFlags_apart {w : EventPtr × Bool} (hw : w ∈ chapterFlags c) {r : FlagRange}
    (hr : r = .uniqueEncounter ∨ r = .skillImprovement) (hp : p ∈ r.pointers) :
    p.location ≠ w.1.location := by
  obtain ⟨-, rfl⟩ | ⟨-, rfl⟩ := mem_chapterFlags.1 hw
  all_goals
    obtain rfl | rfl := hr
    all_goals exact FlagRange.location_ne (by decide) hp (by decide) (by decide)

theorem bit_opened_unseen (hm : Layout.size ≤ m.size)
    (h : ∃ p ∈ ids.flatMap unseenFlags, p.location = l) :
    (opened m c ws offset bs ids).bit l = false := by
  refine Image.bit_allTo ?_ h
  rwa [Image.size_withFlags, Image.size_putBytes, size_dawned]

/-- What is not among the flags of the characters was written before them. -/
theorem bit_opened_of_untouched (hm : Layout.size ≤ m.size)
    (h : ∀ p ∈ ids.flatMap unseenFlags, p.location ≠ l) :
    (opened m c ws offset bs ids).bit l =
      (((dawned m c ws).putBytes offset bs).withFlags (chapterFlags c)).bit l := by
  refine Image.bit_allTo_of_untouched ?_ h
  rwa [Image.size_withFlags, Image.size_putBytes, size_dawned]

theorem bit_opened_chapter (hm : Layout.size ≤ m.size) (hcast : ∀ id ∈ ids, id.isCast = true)
    {w : EventPtr × Bool} (hw : w ∈ chapterFlags c) :
    (opened m c ws offset bs ids).bit w.1.location = w.2 := by
  rw [bit_opened_of_untouched hm fun p hp =>
    chapterFlags_apart hw (.inr rfl) (mem_unseen hcast hp)]
  refine Image.bit_withFlags_of_agree ?_ ⟨w, hw, rfl⟩ fun w' hw' _ => ?_
  · rwa [Image.size_putBytes, size_dawned]
  -- A chapter has one flag at most.
  · obtain ⟨h3, rfl⟩ | ⟨h7, rfl⟩ := mem_chapterFlags.1 hw
    all_goals obtain ⟨h3', rfl⟩ | ⟨h7', rfl⟩ := mem_chapterFlags.1 hw'
    · rfl
    · rw [h3] at h7'
      cases h7'
    · rw [h7] at h3'
      cases h3'
    · rfl

/-- What is neither among the flags of the characters nor that of the chapter was written when the
day broke. -/
theorem bit_opened_dawned (hm : Layout.size ≤ m.size)
    (hend : offset + bs.length ≤ Layout.simpleEvents) (hl : Layout.simpleEvents ≤ l.1)
    (hunseen : ∀ p ∈ ids.flatMap unseenFlags, p.location ≠ l)
    (hchapter : ∀ w ∈ chapterFlags c, w.1.location ≠ l) :
    (opened m c ws offset bs ids).bit l = (dawned m c ws).bit l := by
  have hfull : Layout.size ≤ ((dawned m c ws).putBytes offset bs).size := by
    rwa [Image.size_putBytes, size_dawned]
  rw [bit_opened_of_untouched hm hunseen, Image.bit_withFlags_of_untouched hfull hchapter,
    Image.bit_putBytes hend hl]

theorem bit_opened_unique (hm : Layout.size ≤ m.size)
    (hend : offset + bs.length ≤ Layout.simpleEvents) (hcast : ∀ id ∈ ids, id.isCast = true)
    (hp : p ∈ FlagRange.uniqueEncounter.pointers) :
    (opened m c ws offset bs ids).bit p.location = false := by
  rw [bit_opened_dawned hm hend p.le_location]
  · refine Image.bit_allTo ?_ ⟨p, hp, rfl⟩
    rwa [Image.size_withFlags, Image.size_putBytes]
  · intro q hq
    exact (FlagRange.location_ne_of_stop_le (by decide) (by decide) hp (mem_unseen hcast hq)).symm
  · exact fun w hw => (chapterFlags_apart hw (.inl rfl) hp).symm

/-- What a beginning is not to write stays as it was. -/
theorem bit_opened_other (hm : Layout.size ≤ m.size)
    (hend : offset + bs.length ≤ Layout.simpleEvents) (hcast : ∀ id ∈ ids, id.isCast = true)
    (hl : Layout.simpleEvents ≤ l.1)
    (hunseen : ∀ p ∈ FlagRange.skillImprovement.pointers, p.location ≠ l)
    (hchapter : ∀ w ∈ chapterFlags c, w.1.location ≠ l)
    (hunique : ∀ p ∈ FlagRange.uniqueEncounter.pointers, p.location ≠ l)
    (hws : ∀ w ∈ ws, w.1.location ≠ l) : (opened m c ws offset bs ids).bit l = m.bit l := by
  have hfull : Layout.size ≤ (m.putBytes Layout.chapter (bytes16 c.val.toUInt16)).size := by
    rwa [Image.size_putBytes]
  have hword : Layout.chapter + (bytes16 c.val.toUInt16).length ≤ Layout.simpleEvents := by
    rw [length_bytes16]
    decide
  rw [bit_opened_dawned hm hend hl (fun p hp => hunseen p (mem_unseen hcast hp)) hchapter, dawned,
    Image.bit_allTo_of_untouched (by rwa [Image.size_withFlags]) hunique,
    Image.bit_withFlags_of_untouched hfull hws, Image.bit_putBytes hword hl]

/-- The chapter that is read is the one that has begun. -/
theorem readU16_opened (hm : Layout.size ≤ m.size) (hstart : Layout.stash ≤ offset) :
    (opened m c ws offset bs ids).readU16 Layout.chapter = .ok c.val.toUInt16 := by
  have hfit : m.Fits Layout.chapter (bytes16 c.val.toUInt16) :=
    .inr (Nat.le_trans (by decide : Layout.chapter + 2 ≤ Layout.size) hm)
  have hbefore : Layout.chapter + (bytes16 c.val.toUInt16).length ≤ Layout.stash := by
    rw [length_bytes16]
    decide
  have hend := Nat.le_trans hbefore (by decide : Layout.stash ≤ Layout.simpleEvents)
  have hdawned : (dawned m c ws).Contains Layout.chapter (bytes16 c.val.toUInt16) :=
    ((Image.contains_putBytes hfit).withFlags hend).withFlags hend
  have hsettled : ((dawned m c ws).putBytes offset bs).Contains Layout.chapter
      (bytes16 c.val.toUInt16) := hdawned.putBytes (.inr (Nat.le_trans hbefore hstart))
  exact ((hsettled.withFlags hend).withFlags hend).readU16

end Opened

/-- The effects that run out while the day breaks: all of the rounds take as much time as they have
left. -/
def runningOut (s : Session) : List Effect :=
  s.ledger.entries.filter fun e => e.duration.toNat ≤ expiryRounds * expirySpan.toNat

/-- All of the rounds together. -/
theorem toNat_expiryTime : (expiryTime expiryRounds).toNat = expiryRounds * expirySpan.toNat := by
  decide +kernel

theorem runningOut_eq (s : Session) :
    s.runningOut = s.ledger.entries.filter (¬·.Outlasts (expiryTime expiryRounds)) := by
  refine List.filter_congr fun e _ => ?_
  rw [decide_eq_decide, Effect.Outlasts, Nat.not_lt, toNat_expiryTime]

/-- A chapter has begun: what holds of the session `t` and its image `m'` that come of `s` and its
image `m`. -/
structure Begun (c : Chapter) (s t : Session) (m m' : Image) : Prop where
  /-- The image is as long as it was. -/
  size : m'.size = m.size
  /-- The chapter is the present one. -/
  chapter : t.chapter = c
  /-- So it is in the image. -/
  recorded : m'.readU16 Layout.chapter = .ok c.val.toUInt16
  /-- The roster has the members that it had. -/
  ids : t.party.roster.map (·.id) = s.party.roster.map (·.id)
  /-- The same members are on the road. -/
  active : t.party.active = s.party.active
  /-- What is met once in a chapter may be met again. -/
  unique : ∀ p ∈ FlagRange.uniqueEncounter.pointers, m'.readFlag p = .ok false
  /-- Nobody has an improvement that has not been looked at. -/
  seen : ∀ x ∈ t.party.roster, x.skills.anyUnseen = false
  /-- No flag of an improvement is set for anyone. -/
  unseen : ∀ x ∈ t.party.roster, ∀ slot < FlagRange.perCharacter, ∃ p,
    FlagRange.skillImprovement.pointer (x.id.val.toNat * FlagRange.perCharacter + slot) = .ok p ∧
      m'.readFlag p = .ok false
  /-- Nothing ails the members on the road. -/
  sound : ∀ x ∈ t.party.activeMembers, ∀ k, x.conditions.degree k = 0
  /-- Their health is as good as it can be. -/
  healed : ∀ x ∈ t.party.activeMembers, x.skills.totalHealth = x.skills.maxTotalHealth
  /-- The third chapter clears its flag. -/
  third : c.val = 3 → m'.readFlag chapter3Flag = .ok false
  /-- The seventh chapter sets its flag. -/
  seventh : c.val = 7 → m'.readFlag chapter7Flag = .ok true
  /-- Every other bit from the first flag on is as it was, but for those that effects have written
  as they ran out. -/
  others : ∀ l : Nat × Nat, Layout.simpleEvents ≤ l.1 →
    (∀ p ∈ FlagRange.uniqueEncounter.pointers, p.location ≠ l) →
    (∀ p ∈ FlagRange.skillImprovement.pointers, p.location ≠ l) →
    (c.val = 3 → chapter3Flag.location ≠ l) → (c.val = 7 → chapter7Flag.location ≠ l) →
    (∀ w ∈ flagsOf s.runningOut, w.1.location ≠ l) → m'.bit l = m.bit l

section Begun

variable {ws : List (EventPtr × Bool)} {offset : Nat} {bs : List UInt8} {p : Party}

/-- A chapter has begun once its image is written and the party has recovered. -/
theorem begun_opened (hm : Layout.size ≤ m.size) (hids : (s.party.roster.map (·.id)).Nodup)
    (hcast : ∀ id ∈ s.party.roster.map (·.id), id.isCast = true)
    (hws : ∀ w ∈ ws, w ∈ flagsOf s.runningOut) (hstash : Layout.stash ≤ offset)
    (hend : offset + bs.length ≤ Layout.simpleEvents)
    (hroster : p.roster.map (·.id) = s.party.roster.map (·.id))
    (hactive : p.active = s.party.active) (hparty : t.party = p.refreshed)
    (hchapter : t.chapter = c) :
    Begun c s t m (opened m c ws offset bs (s.party.roster.map (·.id))) := by
  have hfull : Layout.size ≤ (opened m c ws offset bs (s.party.roster.map (·.id))).size := by
    rwa [size_opened]
  rw [← hroster] at hids
  have hsame := Party.sameCompany_refreshed hids
  rw [← hparty] at hsame
  have hroster' := hsame.ids.trans hroster
  constructor
  case size => exact size_opened m c ws offset bs _
  case chapter => exact hchapter
  case recorded => exact readU16_opened hm hstash
  case ids => exact hroster'
  case active => exact hsame.active.trans hactive
  case unique =>
    intro q hq
    rw [Image.readFlag_eq hfull, bit_opened_unique hm hend hcast hq]
  case seen =>
    intro x hx
    rw [hparty] at hx
    exact Party.anyUnseen_refreshed hids hx
  case unseen =>
    intro x hx slot hslot
    have hx' : x.id ∈ s.party.roster.map (·.id) := hroster' ▸ List.mem_map_of_mem hx
    have hflag : unseenFlag x.id slot ∈ (s.party.roster.map (·.id)).flatMap unseenFlags :=
      List.mem_flatMap.2 ⟨x.id, hx', List.mem_map_of_mem (List.mem_range.2 hslot)⟩
    refine ⟨unseenFlag x.id slot, Image.pointer_unseen (hcast _ hx') hslot, ?_⟩
    rw [Image.readFlag_eq hfull, bit_opened_unseen hm ⟨_, hflag, rfl⟩]
  case sound =>
    intro x hx
    rw [hparty] at hx
    exact (Party.healthy_refreshed hids hx).1
  case healed =>
    intro x hx
    rw [hparty] at hx
    exact of_decide_eq_true (Party.healthy_refreshed hids hx).2
  case third =>
    intro h3
    have hflag : (chapter3Flag, false) ∈ chapterFlags c := mem_chapterFlags.2 (.inl ⟨h3, rfl⟩)
    rw [Image.readFlag_eq hfull, bit_opened_chapter hm hcast hflag]
  case seventh =>
    intro h7
    have hflag : (chapter7Flag, true) ∈ chapterFlags c := mem_chapterFlags.2 (.inr ⟨h7, rfl⟩)
    rw [Image.readFlag_eq hfull, bit_opened_chapter hm hcast hflag]
  case others =>
    intro l hl hunique hunseen h3 h7 hout
    refine bit_opened_other hm hend hcast hl hunseen (fun w hw => ?_) hunique fun w hw =>
      hout w (hws w hw)
    obtain ⟨hthird, rfl⟩ | ⟨hseventh, rfl⟩ := mem_chapterFlags.1 hw
    · exact h3 hthird
    · exact h7 hseventh

end Begun

/-- Where the image reaches to the end of the flags, a chapter of the story that has a start begins
for members of the cast, and its start is told. -/
theorem run_transition {start : ChapterStart} {story : Story} (hsave : s.save = some m)
    (hm : Layout.size ≤ m.size) (hids : (s.party.roster.map (·.id)).Nodup)
    (hstart : story.start c = .ok start) (hc : c.inStory = true)
    (hcast : ∀ id ∈ s.party.roster.map (·.id), id.isCast = true) (d : DialogStore) :
    ∃ t m', (transition c story d).run s = (tell story d start).run t ∧ t.save = some m' ∧
      Begun c s t m m' := by
  obtain ⟨t, ws, hdawn, htsave, hws, -⟩ := run_daybreak hsave hm c start
  rw [← runningOut_eq] at hws
  obtain ⟨⟨-, hactive, hroster⟩, hchapter⟩ := together_daybreak c start s
  rw [hdawn] at hactive hroster hchapter
  obtain ⟨offset, bs, haside, hstash, hend⟩ :=
    run_setAside htsave (by rwa [size_dawned]) hc
  obtain ⟨gold, hsettle⟩ := run_settlePurse
    (s := { t with save := some ((dawned m c ws).putBytes offset bs) }) rfl
    (by rwa [Image.size_putBytes, size_dawned]) c
  have hrally := run_rally (s := { t with
      party.gold := gold
      save := some (((dawned m c ws).putBytes offset bs).withFlags (chapterFlags c)) }) rfl
    (by rwa [Image.size_withFlags, Image.size_putBytes, size_dawned])
    (fun id hid => hcast id (hroster ▸ hid))
  have hview : (Step.view fun _ => story.start c : Step Session ChapterStart).run s =
      (.ok start, s) := by rw [Step.run_view, hstart]
  let u : Session := { t with
    party := ({ t.party with gold := gold } : Party).refreshed
    save := some (opened m c ws offset bs (s.party.roster.map (·.id))) }
  have hrun : (transition c story d).run s = (tell story d start).run u := by
    rw [transition_eq, Step.run_bind_ok hview, Step.run_bind_ok hdawn, Step.run_bind_ok haside,
      Step.run_bind_ok hsettle, Step.run_bind_ok hrally]
    dsimp only
    rw [hroster]
    rfl
  exact ⟨u, _, hrun, rfl,
    begun_opened (p := { t.party with gold := gold }) hm hids hcast hws hstash hend hroster hactive
      rfl hchapter⟩

/-- Only a chapter of the story that has a start begins, and only for members of the cast. -/
theorem of_transition_eq_ok {start : ChapterStart} {story : Story} {d : DialogStore}
    (hsave : s.save = some m) (hm : Layout.size ≤ m.size)
    (h : (transition c story d).run s = (.ok start, t)) :
    c.inStory = true ∧ (∀ id ∈ s.party.roster.map (·.id), id.isCast = true) ∧
      ∃ start, story.start c = .ok start := by
  obtain ⟨start', s₁, _, _, _, hstart, hdawn, haside, hsettle, hrally, -⟩ := transition_eq_ok h
  obtain ⟨_, ws, hdawn', hsave₁, -⟩ := run_daybreak hsave hm c start'
  obtain ⟨⟨-, -, hroster⟩, -⟩ := together_daybreak c start' s
  rw [hdawn] at hdawn' hroster
  cases hdawn'
  have hc := inStory_of_setAside hsave₁ haside
  obtain ⟨offset, bs, haside', -⟩ := run_setAside hsave₁ (by rwa [size_dawned]) hc
  rw [haside'] at haside
  cases haside
  obtain ⟨gold, hsettle'⟩ := run_settlePurse
    (s := { s₁ with save := some ((dawned m c ws).putBytes offset bs) }) rfl
    (by rwa [Image.size_putBytes, size_dawned]) c
  rw [hsettle'] at hsettle
  cases hsettle
  have hcast := isCast_of_rally rfl hrally
  exact ⟨hc, fun id hid => hcast id (hroster ▸ hid), start', hstart⟩

/--
A chapter that begins without anything being told has begun (`Begun`): what is met once in a
chapter is forgotten, the improvements of everyone in the roster are seen, in the image as well, and
the members on the road have recovered; the chapter is recorded; and every other bit from the first
flag on is as it was, but for the flag of the third and of the seventh chapter and for what effects
have written as they ran out.
-/
theorem transition_begun {start : ChapterStart} {story : Story} {d : DialogStore}
    (hsave : s.save = some m) (hm : Layout.size ≤ m.size)
    (hids : (s.party.roster.map (·.id)).Nodup) (hquiet : Quiet story c)
    (h : (transition c story d).run s = (.ok start, t)) :
    ∃ m', t.save = some m' ∧ Begun c s t m m' := by
  obtain ⟨hc, hcast, start', hstart⟩ := of_transition_eq_ok hsave hm h
  obtain ⟨u, m', hrun, husave, hbegun⟩ := run_transition hsave hm hids hstart hc hcast d
  rw [h, tell_of_quiet hquiet hstart, Step.run_pure, Prod.mk.injEq] at hrun
  obtain ⟨-, rfl⟩ := hrun
  exact ⟨m', husave, hbegun⟩

/-- The seventh chapter begins over an image in which every bit is set, while the first of two flags
that are to be cleared is due. -/
theorem transition_begun_seventh :
    ∃ (s t : Session) (m m' : Image) (story : Story) (start : ChapterStart),
      s.save = some m ∧ Layout.size ≤ m.size ∧ (s.party.roster.map (·.id)).Nodup ∧
        Quiet story ⟨7⟩ ∧ (transition ⟨7⟩ story .empty).run s = (.ok start, t) ∧
        flagsOf s.runningOut = [(0x40, false)] ∧ t.save = some m' ∧ Begun ⟨7⟩ s t m m' := by
  let m : Image := ⟨.replicate Layout.size 0xff⟩
  let s : Session := { ofSettings .usual .initial with
    save := some m,
    ledger := ⟨[⟨.resetState, 0, 0x40, ⟨100⟩⟩, ⟨.resetState, 0, 0x41, ⟨9000000⟩⟩], 20⟩ }
  let start : ChapterStart := ⟨⟨1⟩, ⟨0, 0⟩, ⟨0⟩, none⟩
  let story : Story := ⟨[(⟨7⟩, start)], none⟩
  have hsave : s.save = some m := rfl
  have hm : Layout.size ≤ m.size := Nat.le_of_eq Array.size_replicate.symm
  have hids : (s.party.roster.map (·.id)).Nodup := by decide +kernel
  have hstart : story.start ⟨7⟩ = .ok start := rfl
  have hquiet : Quiet story ⟨7⟩ := ⟨rfl, fun _ h => by cases h; rfl⟩
  have hcast : ∀ id ∈ s.party.roster.map (·.id), id.isCast = true := by decide +kernel
  obtain ⟨t, -, hrun, -, -⟩ := run_transition hsave hm hids hstart rfl hcast .empty
  rw [tell_of_quiet hquiet hstart] at hrun
  obtain ⟨m', htsave, hbegun⟩ := transition_begun hsave hm hids hquiet hrun
  exact ⟨s, t, _, m', story, start, hsave, hm, hids, hquiet, hrun, by decide +kernel, htsave,
    hbegun⟩

end QuestLogic.Session
