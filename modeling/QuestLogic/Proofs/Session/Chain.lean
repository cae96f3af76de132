import Mathlib
import QuestLogic.Proofs.Script.Library
import QuestLogic.Proofs.Session.Begun

/-!
# Chains and beginnings over a finished library

Where the save image reaches to the end of the flags, actions are carried out to the last one
(`Session.run_performAll`) and branches can be tested, so that over snippets that only name one
another a chain is cut short by nothing but its own length (`Session.run_chainFrom`). A library that
has been finished is such, and its beginnings are for chapters of the story: so its chains and its
chapters either go through or do not end (`Session.sound_of_finish`).
-/

namespace QuestLogic.Session

variable {s : Session} {dialogs : DialogStore}

/-! ## Chains that go through or do not end -/

/-- Actions are carried out to the last one. -/
theorem run_performAll (hs : ¬s.IsCutShort) (as : List Action) :
    ∃ t, (performAll as).run s = (.ok (), t) ∧ ¬t.IsCutShort :=
  ⟨_, run_performAll_eq hs as, not_isCutShort_foldl_perform hs as⟩

/-- Branches can be tested, and one that holds leads where one of the branches does. -/
theorem exists_lastHolding (hs : ¬s.IsCutShort) (branches : List Branch) :
    ∃ next, s.lastHolding branches = .ok next ∧
      ∀ t, next = some t → ∃ b ∈ branches, b.target = t := by
  have hspec := lastHolding_spec s branches
  rcases htest : s.lastHolding branches with e | _ | next
  all_goals rw [htest] at hspec
  · exact absurd hspec.isCutShort hs
  · exact ⟨none, rfl, fun t ht => by cases ht⟩
  · refine ⟨some next, rfl, fun t ht => ?_⟩
    cases ht
    exact hspec.exists_mem

/-- A snippet that is in a store is found there. -/
theorem exists_get {t : Target} (h : dialogs.contains t = true) :
    ∃ snippet, dialogs.get t = .ok snippet ∧ (t, snippet) ∈ dialogs.entries := by
  obtain ⟨snippet, hfind⟩ := Option.isSome_iff_exists.1 h
  obtain ⟨before, after, hentries, -⟩ := List.lookup_eq_some_iff.1 hfind
  refine ⟨snippet, ?_, ?_⟩
  · rw [DialogStore.get, hfind]
  · rw [hentries]
    exact List.mem_append_right _ List.mem_cons_self

/-- Where branches lead to snippets only, a chain goes through or does not end. -/
theorem run_chainFrom
    (hclosed : ∀ e ∈ dialogs.entries, ∀ b ∈ e.2.branches, dialogs.contains b.target = true)
    (first : Target) (left : Nat) {current : Target} (hcurrent : dialogs.contains current = true)
    (hs : ¬s.IsCutShort) :
    ((chainFrom dialogs first left current).run s).1 = .ok () ∨
      ((chainFrom dialogs first left current).run s).1 = .error (.endlessChain first) := by
  induction left generalizing current s with
  | zero => exact .inr rfl
  | succ left ih =>
    obtain ⟨snippet, hget, hmem⟩ := exists_get hcurrent
    obtain ⟨t, hperform, ht⟩ := run_performAll hs snippet.actions
    obtain ⟨next, hnext, hbranch⟩ := exists_lastHolding ht snippet.branches
    have hview : (Step.view (·.lastHolding snippet.branches)).run t = (.ok next, t) := by
      rw [Step.run_view, hnext]
    rw [chainFrom, Step.run_bind_ok (run_get_snippet hget s), Step.run_bind_ok hperform,
      Step.run_bind_ok hview]
    rcases next with _ | next
    · exact .inl rfl
    · obtain ⟨b, hb, rfl⟩ := hbranch _ rfl
      have htarget := hclosed _ hmem b hb
      obtain ⟨following, hfollowing, -⟩ := exists_get htarget
      dsimp only
      rw [Step.run_bind_ok (run_get_snippet hfollowing t)]
      split_ifs
      · exact .inl rfl
      · obtain ⟨u, hu, -⟩ := run_performAll ht following.actions
        exact .inl (congrArg Prod.fst hu)
      · exact ih htarget ht

/-! ## Libraries that have been finished -/

/-- What opens every chapter goes through if it is a snippet. -/
theorem run_performSnippet (hs : ¬s.IsCutShort) {target : Option Target}
    (h : ∀ t, target = some t → dialogs.contains t = true) :
    ∃ t, (performSnippet dialogs target).run s = (.ok (), t) ∧ ¬t.IsCutShort := by
  rcases target with _ | t
  · exact ⟨s, rfl, hs⟩
  · obtain ⟨snippet, hget, -⟩ := exists_get (h t rfl)
    obtain ⟨u, hu, hsound⟩ := run_performAll hs snippet.actions
    exact ⟨u, by rw [performSnippet, Step.run_bind_ok (run_get_snippet hget s), hu], hsound⟩

/-- The chain that tells how a chapter opens goes through or does not end. -/
theorem run_tell {l : Library} (hclosed : l.Closed) (hs : ¬s.IsCutShort) {start : ChapterStart}
    (hstart : ∀ t, start.snippet = some t → l.dialogs.contains t = true) :
    ((tell l.story l.dialogs start).run s).1 = .ok start ∨
      ∃ first, start.snippet = some first ∧
        ((tell l.story l.dialogs start).run s).1 = .error (.endlessChain first) := by
  obtain ⟨t, hcommon, ht⟩ := run_performSnippet hs hclosed.common
  rw [tell, Step.run_bind_ok hcommon]
  rcases hfirst : start.snippet with _ | first
  · exact .inl rfl
  · dsimp only
    have hchain := run_chainFrom hclosed.branches first maxChain (hstart first hfirst) ht
    change ((chain l.dialogs first).run t).1 = _ ∨ ((chain l.dialogs first).run t).1 = _ at hchain
    rcases hrun : (chain l.dialogs first).run t with ⟨e | _, u⟩
    · rw [Step.run_bind_error hrun]
      rw [hrun] at hchain
      rcases hchain with hok | herror
      · cases hok
      · cases herror
        exact .inr ⟨first, rfl, rfl⟩
    · rw [Step.run_bind_ok hrun]
      exact .inl rfl

/--
However texts are read, whatever they leave loaded is safe to play once it is finished. Where the
image reaches to the end of the flags and the roster has members of the cast, no two of them the
same, a chain from a snippet of the library goes through or does not end, and so does the beginning
of a chapter that has a start. A library in which a target is named that is not that of a snippet is
not finished.
-/
theorem sound_of_finish {r : Library.Reader} {l : Library} (hl : Library.Loaded r l) :
    (∀ l', l.finish = .ok l' → ∀ (s : Session) (m : Image), s.save = some m →
      Layout.size ≤ m.size → (s.party.roster.map (·.id)).Nodup →
      (∀ id ∈ s.party.roster.map (·.id), id.isCast = true) →
      (∀ first, l'.dialogs.contains first = true →
        ((chain l'.dialogs first).run s).1 = .ok () ∨
          ((chain l'.dialogs first).run s).1 = .error (.endlessChain first)) ∧
        ∀ c start, l'.story.find? c = some start →
          ((transition c l'.story l'.dialogs).run s).1 = .ok start ∨
            ∃ first, start.snippet = some first ∧
              ((transition c l'.story l'.dialogs).run s).1 = .error (.endlessChain first)) ∧
      (¬l.Closed → ∃ t source, l.finish = .error (.missingSnippet t source) ∧
        l.dialogs.contains t = false) := by
  refine ⟨fun l' hfinish s m hsave hm hids hcast => ?_, fun hopen => ?_⟩
  · obtain ⟨rfl, hclosed⟩ := Library.finish_eq_ok.1 hfinish
    refine ⟨fun first hfirst => ?_, fun c start hfind => ?_⟩
    · exact run_chainFrom hclosed.branches first maxChain hfirst (not_isCutShort hsave hm)
    · obtain ⟨before, after, hstarts, -⟩ := List.lookup_eq_some_iff.1 hfind
      have hmem : (c, start) ∈ l'.story.starts := by
        rw [hstarts]
        exact List.mem_append_right _ List.mem_cons_self
      have hstart : l'.story.start c = .ok start := by rw [Story.start, hfind]
      obtain ⟨t, m', hrun, htsave, hbegun⟩ :=
        run_transition hsave hm hids hstart (hl.inStory _ hmem) hcast l'.dialogs
      rw [hrun]
      refine run_tell hclosed (not_isCutShort htsave ?_) (hclosed.starts _ hmem)
      rwa [hbegun.size]
  · obtain ⟨t, source, hfinish, -, hmissing⟩ := Library.finish_of_not_closed hopen
    exact ⟨t, source, hfinish, hmissing⟩

/-- A library with the beginning of a chapter, whose snippets are yet to be loaded. -/
def announced : Library :=
  ⟨.empty, ⟨[(⟨4⟩, ⟨⟨1⟩, ⟨0, 0⟩, ⟨0⟩, some ⟨16⟩⟩)], some ⟨17⟩⟩, .empty, none⟩

/-- The library with the snippets. -/
def told : Library :=
  { announced with dialogs := ⟨[(⟨16⟩, ⟨[], [⟨.eventFlag 7000 true, ⟨17⟩⟩]⟩), (⟨17⟩, ⟨[], []⟩)]⟩ }

theorem loaded_announced : Library.Loaded .script announced := by
  have hload : Loading.after (Library.loadWith .script .chapters
      "(chapters: [(chapter: 4, zone: 1, snippet: Some(16))], common_snippet: Some(17))") .empty =
        announced := by cbv
  exact hload ▸ Library.Loaded.empty.load _ _

theorem loaded_told : Library.Loaded .script told := by
  have hload : Loading.after (Library.loadWith .script .snippets
      "(snippets: [(target: 16, choices: [(choice: Raw(state: 7000, choice0: 1), target: 17)]),
        (target: 17)])") announced = told := by cbv
  exact hload ▸ loaded_announced.load _ _

/-- Two texts are loaded. The library is finished after the second, and is then played over a blank
image; after the first it is not. -/
theorem sound_of_finish_told :
    Library.Loaded .script told ∧ told.finish = .ok told ∧ ∃ (s : Session) (m : Image),
      s.save = some m ∧ Layout.size ≤ m.size ∧ (s.party.roster.map (·.id)).Nodup ∧
        (∀ id ∈ s.party.roster.map (·.id), id.isCast = true) ∧
        (((chain told.dialogs ⟨16⟩).run s).1 = .ok () ∨
          ((chain told.dialogs ⟨16⟩).run s).1 = .error (.endlessChain ⟨16⟩)) ∧
        (((transition ⟨4⟩ told.story told.dialogs).run s).1 = .ok ⟨⟨1⟩, ⟨0, 0⟩, ⟨0⟩, some ⟨16⟩⟩ ∨
          ∃ first, some ⟨16⟩ = some first ∧
            ((transition ⟨4⟩ told.story told.dialogs).run s).1 = .error (.endlessChain first)) ∧
        Library.Loaded .script announced ∧ ¬announced.Closed ∧ ∃ t source,
          announced.finish = .error (.missingSnippet t source) ∧
            announced.dialogs.contains t = false := by
  let s : Session := { ofSettings .usual .initial with save := some (.zeroed Layout.size) }
  have hfinish : told.finish = .ok told := by decide +kernel
  have hm : Layout.size ≤ (Image.zeroed Layout.size).size := Image.full_zeroed
  have hids : (s.party.roster.map (·.id)).Nodup := by decide +kernel
  have hcast : ∀ id ∈ s.party.roster.map (·.id), id.isCast = true := by decide +kernel
  have hopen : ¬announced.Closed := fun hclosed => by
    have hcontained := hclosed.common ⟨17⟩ rfl
    cases hcontained
  obtain ⟨hsafe, -⟩ := sound_of_finish loaded_told
  obtain ⟨hchain, htransition⟩ := hsafe told hfinish s _ rfl hm hids hcast
  obtain ⟨-, hrefused⟩ := sound_of_finish loaded_announced
  exact ⟨loaded_told, hfinish, s, _, rfl, hm, hids, hcast, hchain ⟨16⟩ rfl, htransition ⟨4⟩ _ rfl,
    loaded_announced, hopen, hrefused hopen⟩

end QuestLogic.Session
