import Mathlib
import OpticsAgent.Docker.LogService
import OpticsAgent.Lib.Paging

/-!
Scrolling back through a container's log with `loadOlderContainerLogs`. Docker's
times are in nanoseconds, the entries' in milliseconds, and the next query goes
back a whole millisecond from the oldest entry, so what was logged in between is
in front of the page and behind the query.
-/

namespace OpticsAgent.Docker

open OpticsAgent.Ecma OpticsAgent.Node OpticsAgent.Lib

/-! ## The log and its pages -/

/-- The lines not later than a time in milliseconds. -/
def upTo (log : List LogLine) (time : ℤ) : List LogLine :=
  log.filter fun line => (line.time : ℤ) ≤ time * 1000000

/-- The answer to `--tail limit --until time`. -/
def pageOf (log : List LogLine) (limit : ℕ) (time : ℤ) : List LogLine :=
  (upTo log time).rtake limit

/-- Docker prints the last lines up to the time it is given. -/
def AnswersUntil (docker : List JsString → Exit) (containerName : JsString) (isCompose : Bool)
    (label : Option ComposeLabel) (log : List LogLine) : Prop :=
  ∀ (limit : ℕ) (time : ℤ), inTimeRange time = true →
    (docker (logArgs containerName isCompose (countText limit) (some (toISOString time)))).Prints
      label (pageOf log limit time)

/-- `new Date` reads what `toISOString` writes. -/
def ReadsIso (newDate : JsString → Option ℤ) : Prop :=
  ∀ time, inTimeRange time = true → newDate (toISOString time) = some time

/-- The time of an entry with a timestamp. -/
def DockerLogEntry.time (entry : DockerLogEntry) : Option ℤ := entry.timestamp.bind dateParse

/-- The oldest time received so far; `before` is the oldest up to this page. -/
def oldest (before : ℤ) (entries : List DockerLogEntry) : ℤ :=
  (entries.filterMap DockerLogEntry.time).foldl min before

structure LogPage where
  before : ℤ
  entries : List DockerLogEntry

/-- `loadOlderContainerLogs`, repeated until a page comes back empty. -/
inductive PagesBack (load : JsString → Except RangeError (List DockerLogEntry)) :
    ℤ → List LogPage → Prop
  | done {before : ℤ} : load (toISOString before) = .ok [] → PagesBack load before []
  | more {before : ℤ} {entries : List DockerLogEntry} {pages : List LogPage} :
      load (toISOString before) = .ok entries → entries ≠ [] →
      PagesBack load (oldest before entries) pages →
      PagesBack load before (⟨before, entries⟩ :: pages)

/-- The position behind the last line of a page. -/
def lastOf (log : List LogLine) (before : ℤ) : ℕ := (upTo log (before - 1)).length

/-- The position of the first line of a page. -/
def firstOf (log : List LogLine) (limit : ℕ) (before : ℤ) : ℕ := lastOf log before - limit

section Paging

variable (stack : ℕ) (newDate : JsString → Option ℤ) (docker : List JsString → Exit)
  (casing : CaseMapping) (containerName deployPreset : JsString) (label : Option ComposeLabel)
  (log : List LogLine) (limit : ℕ)

/-- The line at position `i` is among the entries of the page. -/
def returnsLine (i : ℕ) (line : LogLine) (page : LogPage) : Bool :=
  firstOf log limit page.before ≤ i && i < lastOf log page.before &&
    (line.entry stack containerName label).isSome

/-- From `before` on the pages end, and return each non-blank line of the first
`older` lines once and no other. -/
def PagedOnce (older : ℕ) (before : ℤ) : Prop :=
  ∃ pages, PagesBack (fun before => loadOlderContainerLogs stack docker newDate casing
      containerName deployPreset before limit) before pages ∧
    (∀ page ∈ pages, page.entries.Perm
      ((pageOf log limit (page.before - 1)).filterMap (LogLine.entry stack containerName label))) ∧
    ∀ i line, log[i]? = some line → line.isBlank = false →
      pages.countP (returnsLine stack containerName label log limit i line) =
        if i < older then 1 else 0

/-! ## When the pages join -/

/-- What a timestamp in milliseconds keeps of the line's time. -/
def LogLine.millisecond (line : LogLine) : ℤ := (line.time / 1000000 : ℕ)

/-- The time the agent reads from a line. -/
def LogLine.readTime (line : LogLine) : Option ℤ :=
  (line.entry stack containerName label).bind DockerLogEntry.time

/-- The agent reads the line, and its own time from it unless it is blank. -/
def LogLine.ReadsTrue (line : LogLine) : Prop :=
  (line.reading stack containerName label).toBool = true ∧
    (line.isBlank = false →
      line.readTime stack containerName label = some line.millisecond)

instance (line : LogLine) : Decidable (line.ReadsTrue stack containerName label) :=
  inferInstanceAs (Decidable (_ ∧ _))

/-- Where pages of `limit` lines start, going back from the position `older` and
the time `before`: each has the time of the first line of the page behind it that
is not blank. -/
inductive PageStart (older : ℕ) (before : ℤ) : ℕ → ℤ → Prop
  | here : PageStart older before older before
  | next {position : ℕ} {time : ℤ} {line : LogLine} : PageStart older before position time →
      (pageOf log limit (time - 1)).find? (fun line => !line.isBlank) = some line →
      PageStart older before (firstOf log limit time) line.millisecond

/-- The lines in front of the position, blank ones aside, are those a whole
millisecond or more in front of the time, and the next page shows one of them if
there are any. -/
structure Joined (position : ℕ) (time : ℤ) : Prop where
  ends : (∀ line ∈ pageOf log limit (time - 1), line.isBlank = true) →
    ∀ i line, log[i]? = some line → line.isBlank = false → position ≤ i
  same : (∃ line ∈ pageOf log limit (time - 1), line.isBlank = false) →
    ∀ i line, log[i]? = some line → line.isBlank = false →
      (i < position ↔ (line.time : ℤ) ≤ (time - 1) * 1000000)

/-- No line that is not blank lies in the last millisecond in front of a page, and
no page is blank while others are still to come. -/
def PagesJoin (older : ℕ) (before : ℤ) : Prop :=
  ∀ position time, PageStart log limit older before position time →
    Joined log limit position time

/-- No page is more than `spawnSync` takes. -/
def PagesFit (older : ℕ) (before : ℤ) : Prop :=
  ∀ position time, PageStart log limit older before position time →
    (printedLines label (pageOf log limit (time - 1))).Fits

end Paging

/-! ## The queries -/

/-- The time a query may be made with: it and the moment before are dates. -/
structure Before where
  time : ℤ
  inRange : inTimeRange time = true
  earlier : inTimeRange (time - 1) = true

theorem entry_time_valid {stack : ℕ} {line : JsString} {containerName : Option JsString}
    {stderr : Bool} {entry : DockerLogEntry}
    (h : runtimeLogEntry stack line containerName stderr = .ok (some entry))
    {time : ℤ} (htime : entry.time = some time) :
    inTimeRange time = true ∧ inTimeRange (time - 1) = true := by
  obtain ⟨text, htext, hparse⟩ := Option.bind_eq_some_iff.mp htime
  obtain ⟨value, hrange, hearlier, rfl⟩ := runtimeLogEntry_timestamp h text htext
  rw [dateParse_toISOString hrange] at hparse
  obtain rfl := Option.some.inj hparse
  exact ⟨hrange, hearlier⟩

theorem foldl_min_mem (start : ℤ) (times : List ℤ) :
    times.foldl min start = start ∨ times.foldl min start ∈ times := by
  induction times generalizing start with
  | nil => exact Or.inl rfl
  | cons time times ih =>
      rw [List.foldl_cons]
      rcases ih (min start time) with heq | hmem
      · rw [heq]
        rcases min_choice start time with h | h
        · exact Or.inl h
        · rw [h]
          exact Or.inr List.mem_cons_self
      · exact Or.inr (List.mem_cons_of_mem time hmem)

theorem foldl_min_le (start : ℤ) (times : List ℤ) : times.foldl min start ≤ start := by
  induction times generalizing start with
  | nil => exact le_refl start
  | cons time times ih => exact (ih (min start time)).trans (min_le_left start time)

theorem foldl_min_of_le {start : ℤ} {times : List ℤ} (h : ∀ time ∈ times, start ≤ time) :
    times.foldl min start = start := by
  rcases foldl_min_mem start times with heq | hmem
  · exact heq
  · exact le_antisymm (foldl_min_le start times) (h _ hmem)

section Queries

variable (stack : ℕ) (containerName : JsString) (label : Option ComposeLabel)
  (log : List LogLine) (limit : ℕ)

/-- The oldest time read up to a page. -/
def boundary (before : ℤ) (lines : List LogLine) : ℤ :=
  (lines.filterMap (LogLine.readTime stack containerName label)).foldl min before

theorem readTime_valid {line : LogLine} {time : ℤ}
    (h : line.readTime stack containerName label = some time) :
    inTimeRange time = true ∧ inTimeRange (time - 1) = true := by
  obtain ⟨entry, hentry, htime⟩ := Option.bind_eq_some_iff.mp h
  unfold LogLine.entry lineEntry at hentry
  cases hread : runtimeLogEntry stack (utf8Text (line.printed label)) (some containerName)
      line.stderr with
  | error e =>
      rw [hread] at hentry
      cases hentry
  | ok found =>
      rw [hread] at hentry
      change found = some entry at hentry
      subst hentry
      exact entry_time_valid hread htime

theorem boundary_valid (b : Before) (lines : List LogLine) :
    inTimeRange (boundary stack containerName label b.time lines) = true ∧
      inTimeRange (boundary stack containerName label b.time lines - 1) = true := by
  rcases foldl_min_mem b.time (lines.filterMap (LogLine.readTime stack containerName label)) with
    heq | hmem
  · rw [boundary, heq]
    exact ⟨b.inRange, b.earlier⟩
  · obtain ⟨line, -, hline⟩ := List.mem_filterMap.mp hmem
    exact readTime_valid stack containerName label hline

theorem length_upTo_mono {earlier later : ℤ} (h : earlier ≤ later) :
    (upTo log earlier).length ≤ (upTo log later).length := by
  refine (List.monotone_filter_right log fun line hline => ?_).length_le
  simp only [decide_eq_true_eq] at hline ⊢
  omega

/-- The queries of the paging. A query fails when a line of its page cannot be
read. -/
def logPager : Pager Before where
  first b := firstOf log limit b.time
  last b := lastOf log b.time
  fails b := ∃ line ∈ pageOf log limit (b.time - 1), ∃ e,
    line.reading stack containerName label = .error e
  next b := ⟨boundary stack containerName label b.time (pageOf log limit (b.time - 1)),
    (boundary_valid stack containerName label b _).1,
    (boundary_valid stack containerName label b _).2⟩
  shown i := ∃ line, log[i]? = some line ∧ (line.entry stack containerName label).isSome
  ordered _ := Nat.sub_le _ _
  back b := length_upTo_mono log (Int.sub_le_sub_right (foldl_min_le b.time _) 1)

/-- No page the paging comes to is more than `spawnSync` takes. -/
def Fitting (older : ℕ) (b : Before) : Prop :=
  ∀ p r, (logPager stack containerName label log limit).Reached older b p r →
    (printedLines label (pageOf log limit (r.time - 1))).Fits

end Queries

/-! ## One query -/

theorem upTo_eq_take {log : List LogLine} (hsorted : log.Pairwise fun a b => a.time ≤ b.time)
    (time : ℤ) : upTo log time = log.take (upTo log time).length := by
  induction log with
  | nil => rfl
  | cons line log ih =>
      obtain ⟨hline, hlog⟩ := List.pairwise_cons.mp hsorted
      by_cases h : (line.time : ℤ) ≤ time * 1000000
      · have hcons : upTo (line :: log) time = line :: upTo log time :=
          List.filter_cons_of_pos (by simpa using h)
        rw [hcons, List.length_cons, List.take_succ_cons]
        exact congrArg (List.cons line) (ih hlog)
      · have hnil : upTo (line :: log) time = [] := by
          refine List.filter_eq_nil_iff.mpr fun other hother => ?_
          have hle : line.time ≤ other.time := by
            rcases List.mem_cons.mp hother with rfl | hmem
            · exact le_refl _
            · exact hline other hmem
          simp only [decide_eq_true_eq]
          omega
        rw [hnil, List.length_nil, List.take_zero]

/-- The lines up to a time are the first ones. -/
theorem lt_length_upTo_iff {log : List LogLine}
    (hsorted : log.Pairwise fun a b => a.time ≤ b.time) {time : ℤ} {i : ℕ} {line : LogLine}
    (hline : log[i]? = some line) :
    i < (upTo log time).length ↔ (line.time : ℤ) ≤ time * 1000000 := by
  have htake := upTo_eq_take hsorted time
  constructor
  · intro hlt
    have hmem : line ∈ upTo log time := by
      rw [htake]
      exact List.mem_of_getElem? (i := i) (by rw [List.getElem?_take, if_pos hlt, hline])
    simpa using (List.mem_filter.mp hmem).2
  · intro hle
    by_contra hge
    have hlen : (upTo log time).length ≤ i := not_lt.mp hge
    have hi : i < log.length := (List.getElem?_eq_some_iff.mp hline).1
    have hsplit : upTo log time ++ (log.drop (upTo log time).length).filter
        (fun line => (line.time : ℤ) ≤ time * 1000000) = upTo log time := by
      conv_rhs => rw [upTo, ← List.take_append_drop (upTo log time).length log,
        List.filter_append, ← htake]
      rw [upTo, List.filter_filter]
      simp
    have hnone : (log.drop (upTo log time).length).filter
        (fun line => (line.time : ℤ) ≤ time * 1000000) = [] :=
      List.append_right_eq_self.mp hsplit
    have hmem : line ∈ log.drop (upTo log time).length := by
      refine List.mem_of_getElem? (i := i - (upTo log time).length) ?_
      rw [List.getElem?_drop, Nat.add_sub_cancel' hlen, hline]
    have hlate := List.filter_eq_nil_iff.mp hnone line hmem
    simp only [decide_eq_true_eq] at hlate
    exact hlate hle

theorem mem_pageOf {log : List LogLine} (hsorted : log.Pairwise fun a b => a.time ≤ b.time)
    {limit : ℕ} {before : ℤ} {line : LogLine} :
    line ∈ pageOf log limit (before - 1) ↔
      ∃ i, log[i]? = some line ∧ firstOf log limit before ≤ i ∧ i < lastOf log before := by
  have hpage : pageOf log limit (before - 1) =
      (log.take (lastOf log before)).drop (firstOf log limit before) := by
    rw [pageOf, List.rtake, upTo_eq_take hsorted]
    simp only [List.length_take, firstOf, lastOf]
    have hle : (upTo log (before - 1)).length ≤ log.length := List.length_filter_le _ _
    rw [Nat.min_eq_left hle]
  rw [hpage, List.mem_iff_getElem?]
  constructor
  · rintro ⟨i, hi⟩
    rw [List.getElem?_drop, List.getElem?_take] at hi
    split_ifs at hi with hlt
    exact ⟨firstOf log limit before + i, hi, Nat.le_add_right _ _, hlt⟩
  · rintro ⟨i, hi, hfirst, hlast⟩
    refine ⟨i - firstOf log limit before, ?_⟩
    rw [List.getElem?_drop, Nat.add_sub_cancel' hfirst, List.getElem?_take, if_pos hlast, hi]

theorem untilOf_before {newDate : JsString → Option ℤ} (hdate : ReadsIso newDate) (b : Before) :
    untilOf newDate (toISOString b.time) = .ok (toISOString (b.time - 1)) := by
  rw [untilOf, hdate b.time b.inRange, Option.bind_some, if_pos b.earlier]
  rfl

section Query

variable {stack : ℕ} {newDate : JsString → Option ℤ} {docker : List JsString → Exit}
  {casing : CaseMapping} {containerName deployPreset : JsString} {label : Option ComposeLabel}
  {log : List LogLine} {limit : ℕ}

theorem loadOlder_eq (hdate : ReadsIso newDate) (hlimit : 1 ≤ limit ∧ limit ≤ 5000) (b : Before) :
    loadOlderContainerLogs stack docker newDate casing containerName deployPreset
        (toISOString b.time) limit =
      fetchLogEntries stack docker containerName (logArgs containerName
        (isComposePreset casing deployPreset) (countText limit)
          (some (toISOString (b.time - 1)))) := by
  have hsafe : max 1 (min limit 5000) = limit := by omega
  unfold loadOlderContainerLogs
  rw [untilOf_before hdate, hsafe]
  rfl

theorem loadOlder_of_fails (hdate : ReadsIso newDate) (hdocker : AnswersUntil docker containerName
      (isComposePreset casing deployPreset) label log) (hlimit : 1 ≤ limit ∧ limit ≤ 5000)
    {b : Before} (hfits : (printedLines label (pageOf log limit (b.time - 1))).Fits)
    (h : (logPager stack containerName label log limit).fails b) :
    ∃ e, loadOlderContainerLogs stack docker newDate casing containerName deployPreset
      (toISOString b.time) limit = .error e := by
  obtain ⟨line, hline, e, he⟩ := h
  rw [loadOlder_eq hdate hlimit]
  exact fetchLogEntries_of_error (hdocker limit _ b.earlier) hfits hline he

theorem loadOlder_of_not_fails (hdate : ReadsIso newDate)
    (hdocker : AnswersUntil docker containerName
      (isComposePreset casing deployPreset) label log) (hlimit : 1 ≤ limit ∧ limit ≤ 5000)
    {b : Before} (hfits : (printedLines label (pageOf log limit (b.time - 1))).Fits)
    (h : ¬ (logPager stack containerName label log limit).fails b) :
    ∃ entries, loadOlderContainerLogs stack docker newDate casing containerName deployPreset
        (toISOString b.time) limit = .ok entries ∧
      entries.Perm
        ((pageOf log limit (b.time - 1)).filterMap (LogLine.entry stack containerName label)) := by
  rw [loadOlder_eq hdate hlimit]
  refine fetchLogEntries_of_ok (hdocker limit _ b.earlier) hfits fun line hline => ?_
  cases hread : line.reading stack containerName label with
  | ok entry => exact ⟨entry, rfl⟩
  | error e => exact absurd ⟨line, hline, e, hread⟩ h

theorem showsNothing_iff (hsorted : log.Pairwise fun a b => a.time ≤ b.time) {b : Before} :
    (logPager stack containerName label log limit).ShowsNothing b ↔
      (pageOf log limit (b.time - 1)).filterMap (LogLine.entry stack containerName label) = [] := by
  rw [List.filterMap_eq_nil_iff]
  constructor
  · intro h line hline
    obtain ⟨i, hi, hspan⟩ := (mem_pageOf hsorted).mp hline
    by_contra hentry
    exact h i (Pager.covers_iff.mpr hspan) ⟨line, hi, Option.isSome_iff_ne_none.mpr hentry⟩
  · rintro h i hcovers ⟨line, hi, hentry⟩
    have hnone := h line ((mem_pageOf hsorted).mpr ⟨i, hi, Pager.covers_iff.mp hcovers⟩)
    rw [hnone] at hentry
    cases hentry

/-- The client's oldest time is the oldest read from the page. -/
theorem oldest_eq_boundary {entries : List DockerLogEntry} {before : ℤ} {lines : List LogLine}
    (h : entries.Perm (lines.filterMap (LogLine.entry stack containerName label))) :
    oldest before entries = boundary stack containerName label before lines := by
  have htimes := h.filterMap DockerLogEntry.time
  rw [List.filterMap_filterMap] at htimes
  exact htimes.foldl_eq before

theorem Fitting.next {older : ℕ} {b : Before}
    (h : Fitting stack containerName label log limit older b)
    (hshows : ¬ (logPager stack containerName label log limit).ShowsNothing b) :
    Fitting stack containerName label log limit
      ((logPager stack containerName label log limit).first b)
      ((logPager stack containerName label log limit).next b) :=
  fun _ _ hreached => h _ _ (hreached.next_of hshows)

/-- The pages of the client and the queries of the pager. -/
theorem pages_of_pagesBack (hdate : ReadsIso newDate)
    (hsorted : log.Pairwise fun a b => a.time ≤ b.time)
    (hdocker : AnswersUntil docker containerName (isComposePreset casing deployPreset) label log)
    (hlimit : 1 ≤ limit ∧ limit ≤ 5000) {older : ℕ} {b : Before} {pages : List LogPage}
    (hfits : Fitting stack containerName label log limit older b)
    (h : PagesBack (fun before => loadOlderContainerLogs stack docker newDate casing
      containerName deployPreset before limit) b.time pages) :
    ∃ queries, (logPager stack containerName label log limit).Pages b queries ∧
      pages.map LogPage.before = queries.map Before.time := by
  generalize htime : b.time = time at h
  induction h generalizing b older with
  | @done before hload =>
      subst htime
      have hfails : ¬ (logPager stack containerName label log limit).fails b := by
        intro hfails
        obtain ⟨e, he⟩ := loadOlder_of_fails hdate hdocker hlimit (hfits _ _ .here) hfails
        rw [he] at hload
        cases hload
      obtain ⟨entries, hentries, hperm⟩ :=
        loadOlder_of_not_fails hdate hdocker hlimit (hfits _ _ .here) hfails
      rw [hentries] at hload
      obtain rfl := Except.ok.inj hload
      exact ⟨[], Pager.Pages.done hfails
        ((showsNothing_iff hsorted).mpr (List.nil_perm.mp hperm)), rfl⟩
  | @more before entries pages hload hne hpages ih =>
      subst htime
      have hfails : ¬ (logPager stack containerName label log limit).fails b := by
        intro hfails
        obtain ⟨e, he⟩ := loadOlder_of_fails hdate hdocker hlimit (hfits _ _ .here) hfails
        rw [he] at hload
        cases hload
      obtain ⟨entries', hentries, hperm⟩ :=
        loadOlder_of_not_fails hdate hdocker hlimit (hfits _ _ .here) hfails
      rw [hentries] at hload
      obtain rfl := Except.ok.inj hload
      have hshows : ¬ (logPager stack containerName label log limit).ShowsNothing b := by
        intro hnothing
        rw [(showsNothing_iff hsorted).mp hnothing] at hperm
        exact hne (List.perm_nil.mp hperm)
      obtain ⟨queries, hqueries, hmap⟩ := ih (hfits.next hshows) (oldest_eq_boundary hperm).symm
      refine ⟨b :: queries, Pager.Pages.more hfails hshows hqueries, ?_⟩
      rw [List.map_cons, List.map_cons, hmap]

theorem pagesBack_of_pages (hdate : ReadsIso newDate)
    (hsorted : log.Pairwise fun a b => a.time ≤ b.time)
    (hdocker : AnswersUntil docker containerName (isComposePreset casing deployPreset) label log)
    (hlimit : 1 ≤ limit ∧ limit ≤ 5000) {older : ℕ} {b : Before} {queries : List Before}
    (hfits : Fitting stack containerName label log limit older b)
    (h : (logPager stack containerName label log limit).Pages b queries) :
    ∃ pages, PagesBack (fun before => loadOlderContainerLogs stack docker newDate casing
        containerName deployPreset before limit) b.time pages ∧
      pages.map LogPage.before = queries.map Before.time ∧
      ∀ page ∈ pages, page.entries.Perm ((pageOf log limit (page.before - 1)).filterMap
        (LogLine.entry stack containerName label)) := by
  induction h generalizing older with
  | done hfails hnothing =>
      obtain ⟨entries, hentries, hperm⟩ :=
        loadOlder_of_not_fails hdate hdocker hlimit (hfits _ _ .here) hfails
      rw [(showsNothing_iff hsorted).mp hnothing] at hperm
      obtain rfl := List.perm_nil.mp hperm
      exact ⟨[], PagesBack.done hentries, rfl, by simp⟩
  | @more b queries hfails hsome hqueries ih =>
      obtain ⟨pages, hpages, hmap, hperms⟩ := ih (hfits.next hsome)
      obtain ⟨entries, hentries, hperm⟩ :=
        loadOlder_of_not_fails hdate hdocker hlimit (hfits _ _ .here) hfails
      refine ⟨⟨b.time, entries⟩ :: pages, PagesBack.more hentries (fun hnil => hsome ?_) ?_, ?_,
        List.forall_mem_cons.mpr ⟨hperm, hperms⟩⟩
      · rw [hnil] at hperm
        exact (showsNothing_iff hsorted).mpr (List.nil_perm.mp hperm)
      · rw [oldest_eq_boundary hperm]
        exact hpages
      · rw [List.map_cons, List.map_cons, hmap]

theorem countP_returnsLine {pages : List LogPage} {queries : List Before} {i : ℕ}
    {line : LogLine} (hmap : pages.map LogPage.before = queries.map Before.time) :
    pages.countP (returnsLine stack containerName label log limit i line) =
      if (line.entry stack containerName label).isSome then
        queries.countP ((logPager stack containerName label log limit).covers i) else 0 := by
  split_ifs with hentry
  · have hpages : pages.countP (returnsLine stack containerName label log limit i line) =
        (pages.map LogPage.before).countP fun before =>
          firstOf log limit before ≤ i && i < lastOf log before := by
      rw [List.countP_map]
      refine List.countP_congr fun page _ => ?_
      simp [returnsLine, hentry]
    rw [hpages, hmap, List.countP_map]
    rfl
  · rw [List.countP_eq_zero]
    intro page _
    simp [returnsLine, hentry]

/-! ## Logs that are read as they are -/

theorem LogLine.ReadsTrue.isSome_iff {line : LogLine}
    (h : line.ReadsTrue stack containerName label) :
    (line.entry stack containerName label).isSome ↔ line.isBlank = false := by
  constructor
  · intro hentry
    by_contra hblank
    rw [line.entry_of_isBlank stack containerName label (Bool.not_eq_false _ ▸ hblank)] at hentry
    cases hentry
  · intro hblank
    obtain ⟨entry, hentry, -⟩ := Option.bind_eq_some_iff.mp (h.2 hblank)
    exact Option.isSome_of_eq_some hentry

theorem readTime_of_isBlank {line : LogLine} (h : line.isBlank = true) :
    line.readTime stack containerName label = none := by
  rw [LogLine.readTime, line.entry_of_isBlank stack containerName label h, Option.bind_none]

variable (stack containerName label log) in
/-- The agent reads the lines in front of the position and up to the time as they
are. -/
def PastReadsTrue (older : ℕ) (before : ℤ) : Prop :=
  ∀ i line, log[i]? = some line → i < older ∨ (line.time : ℤ) ≤ (before - 1) * 1000000 →
    line.ReadsTrue stack containerName label

theorem time_le_of_mem_pageOf {time : ℤ} {line : LogLine}
    (h : line ∈ pageOf log limit (time - 1)) : (line.time : ℤ) ≤ (time - 1) * 1000000 := by
  have hmem := List.mem_of_mem_drop h
  simpa using (List.mem_filter.mp hmem).2

theorem PastReadsTrue.page {older : ℕ} {before time : ℤ}
    (h : PastReadsTrue stack containerName label log older before) (htime : time ≤ before) :
    ∀ line ∈ pageOf log limit (time - 1), line.ReadsTrue stack containerName label := by
  intro line hline
  obtain ⟨i, hi⟩ := List.mem_iff_getElem?.mp (List.mem_filter.mp (List.mem_of_mem_drop hline)).1
  have hle := time_le_of_mem_pageOf hline
  exact h i line hi (.inr (by omega))

/-- The oldest time of a page is that of its first line that is not blank. -/
theorem boundary_eq_millisecond {time : ℤ} {line : LogLine}
    (hsorted : log.Pairwise fun a b => a.time ≤ b.time)
    (hread : ∀ line ∈ pageOf log limit (time - 1), line.ReadsTrue stack containerName label)
    (hfirst : (pageOf log limit (time - 1)).find? (fun line => !line.isBlank) = some line) :
    boundary stack containerName label time (pageOf log limit (time - 1)) = line.millisecond := by
  have hbound := time_le_of_mem_pageOf (List.mem_of_find?_eq_some hfirst)
  have hpage : (pageOf log limit (time - 1)).Pairwise fun a b => a.time ≤ b.time :=
    (hsorted.filter _).sublist (List.drop_sublist _ _)
  obtain ⟨hline, front, back, hsplit, hfront⟩ := List.find?_eq_some_iff_append.mp hfirst
  rw [hsplit] at hread hpage ⊢
  have hblank : front.filterMap (LogLine.readTime stack containerName label) = [] := by
    refine List.filterMap_eq_nil_iff.mpr fun other hother => readTime_of_isBlank ?_
    simpa using hfront other hother
  have hown := (hread line (by simp)).2 (by simpa using hline)
  rw [boundary, List.filterMap_append, hblank, List.nil_append, List.filterMap_cons, hown,
    List.foldl_cons, min_eq_right (by unfold LogLine.millisecond; omega)]
  refine foldl_min_of_le fun found hfound => ?_
  obtain ⟨other, hother, hfound⟩ := List.mem_filterMap.mp hfound
  have hlater := (List.pairwise_cons.mp (List.pairwise_append.mp hpage).2.1).1 other hother
  cases hblank : other.isBlank with
  | true =>
      rw [readTime_of_isBlank hblank] at hfound
      cases hfound
  | false =>
      rw [(hread other (by simp [hother])).2 hblank] at hfound
      obtain rfl := Option.some.inj hfound
      unfold LogLine.millisecond
      omega

section Past

variable {older : ℕ} {before : Before}

theorem reached_bounds {p : ℕ} {r : Before}
    (h : (logPager stack containerName label log limit).Reached older before p r) :
    r.time ≤ before.time ∧ p ≤ max older (lastOf log before.time) := by
  induction h with
  | here => exact ⟨le_refl _, le_max_left _ _⟩
  | @next p r hreached hshows ih =>
      refine ⟨(foldl_min_le r.time _).trans ih.1, ?_⟩
      have hlast : firstOf log limit r.time ≤ lastOf log r.time := Nat.sub_le _ _
      have hback : lastOf log r.time ≤ lastOf log before.time :=
        length_upTo_mono log (Int.sub_le_sub_right ih.1 1)
      exact (hlast.trans hback).trans (le_max_right _ _)

variable (hsorted : log.Pairwise fun a b => a.time ≤ b.time)
  (hread : PastReadsTrue stack containerName label log older before.time)
include hsorted hread

variable (limit) in
theorem showsNothing_iff_blank {r : Before} (hr : r.time ≤ before.time) :
    (logPager stack containerName label log limit).ShowsNothing r ↔
      ∀ line ∈ pageOf log limit (r.time - 1), line.isBlank = true := by
  rw [showsNothing_iff hsorted, List.filterMap_eq_nil_iff]
  refine forall₂_congr fun line hline => ?_
  have hsome := (hread.page hr line hline).isSome_iff
  rw [← Option.not_isSome_iff_eq_none, hsome, Bool.not_eq_false]

/-- The pages of the log start where the queries of the pager come to. -/
theorem pageStart_iff {p : ℕ} {time : ℤ} :
    PageStart log limit older before.time p time ↔
      ∃ r, (logPager stack containerName label log limit).Reached older before p r ∧
        r.time = time := by
  constructor
  · intro h
    induction h with
    | here => exact ⟨before, .here, rfl⟩
    | @next p time line hstart hfirst ih =>
        obtain ⟨r, hreached, rfl⟩ := ih
        have hr := (reached_bounds hreached).1
        refine ⟨_, .next hreached (fun hnothing => ?_),
          boundary_eq_millisecond hsorted (hread.page hr) hfirst⟩
        have hblank := (showsNothing_iff_blank limit hsorted hread hr).mp hnothing line
          (List.mem_of_find?_eq_some hfirst)
        have hline := List.find?_some hfirst
        rw [hblank] at hline
        cases hline
  · rintro ⟨r, hreached, rfl⟩
    induction hreached with
    | here => exact .here
    | @next p r hreached hshows ih =>
        have hr := (reached_bounds hreached).1
        rw [showsNothing_iff_blank limit hsorted hread hr] at hshows
        obtain ⟨line, hfirst⟩ : ∃ line, (pageOf log limit (r.time - 1)).find?
            (fun line => !line.isBlank) = some line := by
          rw [← Option.isSome_iff_exists, List.find?_isSome]
          simpa using hshows
        have hnext := PageStart.next ih hfirst
        rwa [← boundary_eq_millisecond hsorted (hread.page hr) hfirst] at hnext

variable (limit) in
/-- A line is shown unless it is blank, or behind everything that is asked for. -/
theorem shown_iff_or_beyond {i : ℕ} {line : LogLine} (hline : log[i]? = some line) :
    ((logPager stack containerName label log limit).shown i ↔ line.isBlank = false) ∨
      max older (lastOf log before.time) ≤ i := by
  by_cases hpast : i < older ∨ (line.time : ℤ) ≤ (before.time - 1) * 1000000
  · left
    rw [← (hread i line hline hpast).isSome_iff]
    constructor
    · rintro ⟨found, hfound, hentry⟩
      obtain rfl := Option.some.inj (hline.symm.trans hfound)
      exact hentry
    · exact fun hentry => ⟨line, hline, hentry⟩
  · right
    obtain ⟨holder, hlate⟩ := not_or.mp hpast
    rw [← lt_length_upTo_iff hsorted hline] at hlate
    exact max_le (not_lt.mp holder) (not_lt.mp hlate)

theorem joins_iff {p : ℕ} {r : Before}
    (hreached : (logPager stack containerName label log limit).Reached older before p r) :
    (logPager stack containerName label log limit).Joins p r ↔ Joined log limit p r.time := by
  obtain ⟨hr, hp⟩ := reached_bounds hreached
  have hblank := showsNothing_iff_blank limit hsorted hread hr
  have hlast : lastOf log r.time ≤ lastOf log before.time :=
    length_upTo_mono log (Int.sub_le_sub_right hr 1)
  have hfails : ¬ (logPager stack containerName label log limit).fails r := by
    rintro ⟨line, hline, e, he⟩
    have hok := (hread.page hr line hline).1
    rw [he] at hok
    cases hok
  have hsome : (¬ ∀ line ∈ pageOf log limit (r.time - 1), line.isBlank = true) ↔
      ∃ line ∈ pageOf log limit (r.time - 1), line.isBlank = false := by
    simp
  constructor
  · intro h
    refine ⟨fun hall i line hline hnonblank => ?_, fun hex i line hline hnonblank => ?_⟩
    · rcases shown_iff_or_beyond limit hsorted hread hline with hshown | hbeyond
      · exact h.ends (hblank.mpr hall) i (hshown.mpr hnonblank)
      · exact hp.trans hbeyond
    · rw [← lt_length_upTo_iff hsorted hline]
      rcases shown_iff_or_beyond limit hsorted hread hline with hshown | hbeyond
      · exact h.same (fun hnone => (hsome.mpr hex) (hblank.mp hnone)) i (hshown.mpr hnonblank)
      · refine iff_of_false (not_lt.mpr (hp.trans hbeyond)) (not_lt.mpr ?_)
        exact hlast.trans ((le_max_right _ _).trans hbeyond)
  · intro h
    refine ⟨hfails, fun hnone i hshows => ?_, fun hmore i hshows => ?_⟩
    · obtain ⟨line, hline, -⟩ := id hshows
      rcases shown_iff_or_beyond limit hsorted hread hline with hshown | hbeyond
      · exact h.ends (hblank.mp hnone) i line hline (hshown.mp hshows)
      · exact hp.trans hbeyond
    · obtain ⟨line, hline, -⟩ := id hshows
      rcases shown_iff_or_beyond limit hsorted hread hline with hshown | hbeyond
      · have hsame := h.same (hsome.mp (hblank.not.mp hmore)) i line hline (hshown.mp hshows)
        rw [hsame]
        exact (lt_length_upTo_iff hsorted hline).symm
      · refine iff_of_false (not_lt.mpr (hp.trans hbeyond)) (not_lt.mpr ?_)
        exact hlast.trans ((le_max_right _ _).trans hbeyond)

/-- The queries of the pager join where the pages of the log do. -/
theorem seamless_iff_pagesJoin :
    (logPager stack containerName label log limit).Seamless older before ↔
      PagesJoin log limit older before.time := by
  rw [Pager.seamless_iff]
  constructor
  · intro h p time hstart
    obtain ⟨r, hreached, rfl⟩ := (pageStart_iff hsorted hread).mp hstart
    exact (joins_iff hsorted hread hreached).mp (h p r hreached)
  · intro h p r hreached
    exact (joins_iff hsorted hread hreached).mpr
      (h p r.time ((pageStart_iff hsorted hread).mpr ⟨r, hreached, rfl⟩))

theorem fitting_of_pagesFit (hfits : PagesFit label log limit older before.time) :
    Fitting stack containerName label log limit older before :=
  fun p r hreached => hfits p r.time ((pageStart_iff hsorted hread).mpr ⟨r, hreached, rfl⟩)

end Past

theorem PagedOnce.pagesJoin {older : ℕ} {before : Before} (hdate : ReadsIso newDate)
    (hsorted : log.Pairwise fun a b => a.time ≤ b.time)
    (hdocker : AnswersUntil docker containerName (isComposePreset casing deployPreset) label log)
    (hlimit : 1 ≤ limit ∧ limit ≤ 5000)
    (hread : PastReadsTrue stack containerName label log older before.time)
    (hfits : PagesFit label log limit older before.time)
    (h : PagedOnce stack newDate docker casing containerName deployPreset label log limit older
      before.time) : PagesJoin log limit older before.time := by
  obtain ⟨pages, hpages, -, hcount⟩ := h
  obtain ⟨queries, hqueries, hmap⟩ := pages_of_pagesBack hdate hsorted hdocker hlimit
    (fitting_of_pagesFit hsorted hread hfits) hpages
  rw [← seamless_iff_pagesJoin hsorted hread, ← Pager.showsOnce_iff]
  refine ⟨queries, hqueries, ?_⟩
  rintro i ⟨line, hline, hentry⟩
  have hblank : line.isBlank = false := by
    by_contra hblank
    rw [line.entry_of_isBlank stack containerName label (Bool.not_eq_false _ ▸ hblank)] at hentry
    cases hentry
  have hone := hcount i line hline hblank
  rwa [countP_returnsLine hmap, if_pos hentry] at hone

theorem PagesJoin.pagedOnce {older : ℕ} {before : Before} (hdate : ReadsIso newDate)
    (hsorted : log.Pairwise fun a b => a.time ≤ b.time)
    (hdocker : AnswersUntil docker containerName (isComposePreset casing deployPreset) label log)
    (hlimit : 1 ≤ limit ∧ limit ≤ 5000)
    (hread : PastReadsTrue stack containerName label log older before.time)
    (hfits : PagesFit label log limit older before.time)
    (h : PagesJoin log limit older before.time) :
    PagedOnce stack newDate docker casing containerName deployPreset label log limit older
      before.time := by
  rw [← seamless_iff_pagesJoin hsorted hread, ← Pager.showsOnce_iff] at h
  obtain ⟨queries, hqueries, hcount⟩ := h
  obtain ⟨pages, hpages, hmap, hperms⟩ := pagesBack_of_pages hdate hsorted hdocker hlimit
    (fitting_of_pagesFit hsorted hread hfits) hqueries
  refine ⟨pages, hpages, hperms, fun i line hline hblank => ?_⟩
  rw [countP_returnsLine hmap]
  by_cases hentry : (line.entry stack containerName label).isSome
  · rw [if_pos hentry]
    exact hcount i ⟨line, hline, hentry⟩
  · rw [if_neg hentry, if_neg]
    intro hlt
    exact hentry ((hread i line hline (.inl hlt)).isSome_iff.mpr hblank)

end Query

theorem length_printed_le {label : Option ComposeLabel} {page log : List LogLine}
    (h : page.Sublist log) (stderr : Bool) :
    ((ofStream stderr page).flatMap fun line => line.printed label ++ [10]).length ≤
      ((ofStream stderr log).flatMap fun line => line.printed label ++ [10]).length := by
  rw [List.length_flatMap, List.length_flatMap]
  exact ((h.filter _).map _).sum_le_sum fun _ _ => Nat.zero_le _

/-- Pages of a log that `spawnSync` takes whole are taken whole. -/
theorem fits_of_sublist {label : Option ComposeLabel} {page log : List LogLine}
    (h : page.Sublist log) (hlog : (printedLines label log).Fits) :
    (printedLines label page).Fits :=
  (Nat.add_le_add (length_printed_le h false) (length_printed_le h true)).trans hlog

theorem pageOf_sublist (log : List LogLine) (limit : ℕ) (time : ℤ) :
    (pageOf log limit time).Sublist log :=
  (List.drop_sublist _ _).trans List.filter_sublist

theorem pagesFit_of_fits {label : Option ComposeLabel} {log : List LogLine}
    (h : (printedLines label log).Fits) (limit older : ℕ) (before : ℤ) :
    PagesFit label log limit older before :=
  fun _ _ _ => fits_of_sublist (pageOf_sublist log limit _) h

/-! ## Two logs -/

/-- A docker that answers `logs --timestamps --tail N --until U name` as it should. -/
def logsDocker (label : Option ComposeLabel) (log : List LogLine) : List JsString → Exit
  | [_, _, _, tail, _, time, _] =>
      match tail.mapM digit?, dateParse time with
      | some digits, some time => printedLines label (pageOf log (decimalValue digits) time)
      | _, _ => ⟨some 1, [], [], {}⟩
  | _ => ⟨some 1, [], [], {}⟩

theorem answersUntil_logsDocker (containerName : JsString) (label : Option ComposeLabel)
    (log : List LogLine) :
    AnswersUntil (logsDocker label log) containerName false label log := by
  intro limit time hrange
  have htail : (countText limit).mapM digit? = some (naturalDigits limit) :=
    mapM_digit?_digitUnit _
  have hanswer : logsDocker label log (logArgs containerName false (countText limit)
      (some (toISOString time))) = printedLines label (pageOf log limit time) := by
    simp [logArgs, logsDocker, htail, dateParse_toISOString hrange]
  rw [hanswer]
  exact prints_printedLines label _

theorem readsIso_dateParse : ReadsIso dateParse := fun _ hrange => dateParse_toISOString hrange

/-- 2026-01-05T10:00:00Z. -/
def sampleTime : Before where
  time := 1767607200000
  inRange := by decide
  earlier := by decide

instance neZero_nanoseconds : NeZero 1000000 := ⟨by decide⟩

/-- The millisecond of `sampleTime` and `ns` nanoseconds more. -/
def sampleLine (ns : Fin 1000000) (text : List Byte)
    (h : text.all (fun b => !isNewline b) = true) : LogLine where
  time := 1767607200000000000 + ns
  stderr := false
  text := text
  inRange := by omega
  oneLine := oneLine_of_all h

theorem pastReadsTrue_of_forall {stack : ℕ} {containerName : JsString}
    {label : Option ComposeLabel} {log : List LogLine}
    (h : ∀ line ∈ log, line.ReadsTrue stack containerName label) (older : ℕ) (before : ℤ) :
    PastReadsTrue stack containerName label log older before :=
  fun _ line hline _ => h line (List.mem_of_getElem? hline)

/-- Lines in milliseconds of their own are paged back. -/
def calmLog : List LogLine :=
  [{ sampleLine 0 (utf8Bytes (js "starting")) starting_oneLine with
      time := 1767607199995000000
      inRange := by norm_num },
    sampleLine 900000 (utf8Bytes (js "ready")) ready_oneLine]

theorem calmLog_starts {p : ℕ} {time : ℤ}
    (h : PageStart calmLog 1000 1 sampleTime.time p time) :
    p = 1 ∧ time = 1767607200000 ∨ p = 0 ∧ time = 1767607199995 := by
  induction h with
  | here => exact .inl ⟨rfl, rfl⟩
  | @next p time line hstart hfirst ih =>
      rcases ih with ⟨rfl, rfl⟩ | ⟨rfl, rfl⟩
      · have hpage : ((pageOf calmLog 1000 (1767607200000 - 1)).find? fun line => !line.isBlank).map
            LogLine.millisecond = some 1767607199995 := by decide +kernel
        rw [hfirst] at hpage
        exact .inr ⟨by decide +kernel, Option.some.inj hpage⟩
      · have hpage : ((pageOf calmLog 1000 (1767607199995 - 1)).find?
            fun line => !line.isBlank).isNone = true := by decide +kernel
        rw [hfirst] at hpage
        cases hpage

theorem calmLog_joins : PagesJoin calmLog 1000 1 sampleTime.time := by
  have hlines : ∀ {P : ℕ → LogLine → Prop}, (∀ i : Fin 2, P i calmLog[i]) →
      ∀ i line, calmLog[i]? = some line → line.isBlank = false → P i line := by
    intro P h i line hline _
    obtain ⟨hi, rfl⟩ := List.getElem?_eq_some_iff.mp hline
    exact h ⟨i, hi⟩
  intro p time hstart
  rcases calmLog_starts hstart with ⟨rfl, rfl⟩ | ⟨rfl, rfl⟩
  · have hsome : ¬ ∀ line ∈ pageOf calmLog 1000 (1767607200000 - 1), line.isBlank = true := by
      decide +kernel
    refine ⟨fun hall => absurd hall hsome, fun _ => ?_⟩
    exact hlines (P := fun i line => i < 1 ↔ (line.time : ℤ) ≤ (1767607200000 - 1) * 1000000)
      (by decide +kernel)
  · have hnone : ¬ ∃ line ∈ pageOf calmLog 1000 (1767607199995 - 1), line.isBlank = false := by
      decide +kernel
    exact ⟨fun _ i _ _ _ => Nat.zero_le i, fun hex => absurd hex hnone⟩

/-- Two lines of one millisecond, the page from the second one on: the first is
never returned. -/
def burstLog : List LogLine :=
  [sampleLine 500000 (utf8Bytes (js "starting")) starting_oneLine,
    sampleLine 900000 (utf8Bytes (js "ready")) ready_oneLine]

end OpticsAgent.Docker
