import CrossRef.Proofs.Listing
import Mathlib.Data.List.Nodup
import Mathlib.Data.List.ProdSigma

namespace CrossRef

open Text

-- A text without line feeds.
def OneLine (text : String) : Prop := '\n' ∉ text.toList

instance (text : String) : Decidable (OneLine text) := inferInstanceAs (Decidable ('\n' ∉ text.toList))

theorem OneLine.append {s t : String} (hs : OneLine s) (ht : OneLine t) : OneLine (s ++ t) := by
  simp only [OneLine, String.toList_append, List.mem_append] at hs ht ⊢
  exact fun h => h.elim hs ht

-- A literal is unified with a list of characters, so that no text has to be evaluated.
theorem oneLine_ofList {text : List Char} (h : '\n' ∉ text) : OneLine (String.ofList text) := by
  rwa [OneLine, String.toList_ofList]

theorem oneLine_repr (n : Nat) : OneLine (Nat.repr n) :=
  fun h => absurd (isDigit_of_mem_repr n _ h) (by decide)

theorem oneLine_siteLine {name : String} {l : Location} (hn : OneLine name) (hf : OneLine l.file) :
    OneLine (siteLine name l) := by
  have hsite : OneLine l.site := hf.append (oneLine_ofList (by decide)) |>.append (oneLine_repr l.line)
  exact oneLine_ofList (by decide) |>.append hsite |>.append <| .append (oneLine_ofList (by decide)) hn

-- The characters of some lines, each of which ends in a line feed.
def unlines (texts : List String) : List Char := texts.flatMap fun text => text.toList ++ ['\n']

theorem unlines_append (texts rest : List String) :
    unlines (texts ++ rest) = unlines texts ++ unlines rest :=
  List.flatMap_append

theorem delimited_line : Delimited OneLine fun text : String => text.toList ++ ['\n'] := by
  intro s t rest rest' hs ht h
  have hne {text : String} (hl : OneLine text) : ∀ c ∈ text.toList, c ≠ '\n' :=
    fun c hc he => hl (he ▸ hc)
  rw [List.append_assoc, List.append_assoc] at h
  have ⟨hst, h⟩ := append_inj_of_forall (hne hs) (hne ht) (by simp) (by simp) h
  exact ⟨String.toList_inj.mp hst, List.tail_eq_of_cons_eq h⟩

theorem unlines_cons_inj {s t : String} {texts texts' : List String} (hs : OneLine s) (ht : OneLine t)
    (h : unlines (s :: texts) = unlines (t :: texts')) : s = t ∧ unlines texts = unlines texts' :=
  delimited_line hs ht h

theorem unlines_inj {texts texts' : List String} (h : ∀ text ∈ texts, OneLine text)
    (h' : ∀ text ∈ texts', OneLine text) (he : unlines texts = unlines texts') : texts = texts' := by
  have hne (text : String) (more : List Char) : text.toList ++ ['\n'] ++ more ≠ [] := by simp
  refine delimited_line.flatMap_append_inj hne hne h h' ?_
  simpa [unlines] using he

theorem toList_showLines (lines : List (List Span)) :
    (showLines false lines).toList = unlines (lines.map lineText) := by
  have hshown : Span.shown false = (·.text) := by
    funext span
    cases h : span.style? <;> simp [Span.shown, h]
  simp [showLines, unlines, hshown, lineText, String.toList_join, List.flatMap_map]

namespace Report

theorem oneLine_ruleLine {c : Char} (h : c ≠ '\n') : OneLine (lineText (ruleLine c)) := by
  rw [ruleLine, lineText_plainLine]
  exact oneLine_ofList fun hm => h (List.eq_of_mem_replicate hm).symm

theorem oneLine_label (kind : Kind) : OneLine kind.label := by
  cases kind <;> exact oneLine_ofList (by decide)

theorem oneLine_setVerb (kind : Kind) : OneLine kind.setVerb := by
  cases kind <;> exact oneLine_ofList (by decide)

theorem oneLine_phrase (kind : Kind) {a b c : List Char} (ha : '\n' ∉ a) (hb : '\n' ∉ b) (hc : '\n' ∉ c) :
    OneLine (String.ofList a ++ kind.label ++ String.ofList b ++ kind.setVerb ++ String.ofList c) :=
  oneLine_ofList ha |>.append (oneLine_label kind) |>.append (oneLine_ofList hb)
    |>.append (oneLine_setVerb kind) |>.append (oneLine_ofList hc)

theorem oneLine_checkingText (kind : Kind) (category : Category) : OneLine (checkingText kind category) := by
  cases category <;> exact oneLine_phrase kind (by decide) (by decide) (by decide)

theorem oneLine_foundText (kind : Kind) (category : Category) : OneLine (foundText kind category) := by
  cases category <;> exact oneLine_phrase kind (by decide) (by decide) (by decide)

theorem oneLine_cleanText (kind : Kind) (category : Category) : OneLine (cleanText kind category) := by
  cases category <;> exact oneLine_ofList (by decide) |>.append (oneLine_label kind)

theorem oneLine_countText (n : Nat) : OneLine (countText n) := by
  rw [countText]
  split
  · exact oneLine_ofList (by decide)
  · exact (oneLine_repr n).append (oneLine_ofList (by decide))

-- Every section has a heading of its own.
theorem checkingText_inj {kind kind' : Kind} {category category' : Category}
    (h : checkingText kind category = checkingText kind' category') :
    kind = kind' ∧ category = category' := by
  have hnodup : ((Kind.all.product Category.all).map fun x => checkingText x.1 x.2).Nodup := by
    decide +kernel
  have hmem (k : Kind) (c : Category) : (k, c) ∈ Kind.all.product Category.all :=
    List.mem_product.mpr ⟨k.mem_all, c.mem_all⟩
  exact Prod.mk.inj (List.inj_on_of_nodup_map hnodup (hmem kind category) (hmem kind' category') h)

theorem foundText_ne_cleanText (kind : Kind) (category : Category) :
    foundText kind category ≠ cleanText kind category := by
  have hmark {c : Char} {start : List Char} (hc : c ≠ '✓') (t₁ t₂ t₃ t₄ : String) :
      (String.ofList (c :: start) ++ t₁ ++ t₂ ++ t₃ ++ t₄).toList.head? ≠ some '✓' := by
    simpa using hc
  intro h
  have hhead := head?_cleanText kind category
  rw [← h] at hhead
  cases category <;> exact hmark (by decide) _ _ _ _ hhead

namespace Section

variable {s s' : Section}

def texts (s : Section) : List String := s.lines.map lineText

-- The lines of a section down to its heading.
def headTexts (s : Section) : List String :=
  ["", lineText (ruleLine '='), checkingText s.kind s.category, lineText (ruleLine '=')]

-- The lines of a section below its heading.
def findingTexts (s : Section) : List String := (findingLines s.kind s.category s.defects).map lineText

theorem texts_eq (s : Section) : s.texts = s.headTexts ++ s.findingTexts := by
  simp [texts, lines, headTexts, findingTexts, lineText_plainLine, lineText_styledLine]

theorem findingTexts_of_nil (h : s.defects = []) : s.findingTexts = [cleanText s.kind s.category] := by
  simp [findingTexts, findingLines, h, lineText_styledLine]

theorem findingTexts_of_ne_nil (h : s.defects ≠ []) :
    s.findingTexts = foundText s.kind s.category ::
      (s.defects.flatMap Defect.siteLines ++ [countText s.defects.length]) := by
  simp [findingTexts, findingLines, h, lineText_styledLine, List.map_flatMap, map_lineText_defectLines]

theorem headTexts_append_inj {xs ys : List String} (h : s.headTexts ++ xs = s'.headTexts ++ ys) :
    s.kind = s'.kind ∧ s.category = s'.category ∧ xs = ys := by
  simp only [headTexts, List.cons_append, List.nil_append, List.cons.injEq, true_and] at h
  have ⟨hk, hc⟩ := checkingText_inj h.1
  exact ⟨hk, hc, h.2⟩

theorem countText_ne_siteLine {n : Nat} (hn : n ≠ 0) (name : String) (l : Location) :
    countText n ≠ siteLine name l := by
  intro h
  have hcount := leadingNumber_countText n
  rw [h, leadingNumber_eq_zero (by simp [toList_siteLine])] at hcount
  exact hn hcount.symm

theorem findingTexts_append_inj (hk : s.kind = s'.kind) (hc : s.category = s'.category)
    (h : IsListing s.kind s.defects) (h' : IsListing s'.kind s'.defects) {rest rest' : List String}
    (he : s.findingTexts ++ rest = s'.findingTexts ++ rest') : s.defects = s'.defects ∧ rest = rest' := by
  have hne := foundText_ne_cleanText s.kind s.category
  by_cases hd : s.defects = [] <;> by_cases hd' : s'.defects = []
  · rw [findingTexts_of_nil hd, findingTexts_of_nil hd'] at he
    exact ⟨hd.trans hd'.symm, List.tail_eq_of_cons_eq he⟩
  · rw [findingTexts_of_nil hd, findingTexts_of_ne_nil hd', ← hk, ← hc] at he
    exact absurd (List.head_eq_of_cons_eq he).symm hne
  · rw [findingTexts_of_ne_nil hd, findingTexts_of_nil hd', ← hk, ← hc] at he
    exact absurd (List.head_eq_of_cons_eq he) hne
  · rw [findingTexts_of_ne_nil hd, findingTexts_of_ne_nil hd', List.cons_append, List.cons_append,
      List.append_assoc, List.append_assoc] at he
    have he := List.tail_eq_of_cons_eq he
    have hcount {ds : List Defect} (hds : ds ≠ []) (rest : List String) :
        ∀ t ∈ ([countText ds.length] ++ rest).head?, ∀ name l, t ≠ siteLine name l := by
      simpa using countText_ne_siteLine (List.length_pos_iff.mpr hds).ne'
    have ⟨hds, he⟩ := h.flatMap_siteLines_inj (hk ▸ h') (hcount hd rest) (hcount hd' rest') he
    exact ⟨hds, List.tail_eq_of_cons_eq he⟩

theorem delimited_texts : Delimited (fun s : Section => IsListing s.kind s.defects) texts := by
  intro s s' rest rest' h h' he
  rw [texts_eq, texts_eq, List.append_assoc, List.append_assoc] at he
  have ⟨hk, hc, he⟩ := headTexts_append_inj he
  have ⟨hd, he⟩ := findingTexts_append_inj hk hc h h' he
  cases s
  cases s'
  simp_all

theorem oneLine_headTexts (s : Section) : ∀ t ∈ s.headTexts, OneLine t := by
  have hrule : OneLine (lineText (ruleLine '=')) := oneLine_ruleLine (by decide)
  simp only [headTexts, List.forall_mem_cons]
  exact ⟨oneLine_ofList (by decide), hrule, oneLine_checkingText _ _, hrule, by simp⟩

theorem oneLine_texts (h : IsListing s.kind s.defects)
    (hf : ∀ d ∈ s.defects, ∀ l ∈ d.locations, OneLine l.file) : ∀ t ∈ s.texts, OneLine t := by
  rw [texts_eq, List.forall_mem_append]
  refine ⟨s.oneLine_headTexts, ?_⟩
  by_cases hd : s.defects = []
  · rw [findingTexts_of_nil hd, List.forall_mem_singleton]
    exact oneLine_cleanText _ _
  · rw [findingTexts_of_ne_nil hd, List.forall_mem_cons, List.forall_mem_append, List.forall_mem_singleton]
    refine ⟨oneLine_foundText _ _, ?_, oneLine_countText _⟩
    intro t ht
    have ⟨d, hd, ht⟩ := List.mem_flatMap.mp ht
    obtain ⟨l, hl, rfl⟩ := List.mem_map.mp ht
    exact oneLine_siteLine (h.not_mem_name hd (by decide)) (hf d hd l hl)

end Section

theorem ruleLine_ne : lineText (ruleLine '#') ≠ lineText (ruleLine '=') := by
  intro h
  rw [ruleLine, ruleLine, lineText_plainLine, lineText_plainLine, String.ofList_inj,
    List.replicate_right_inj (by decide)] at h
  exact absurd h (by decide)

-- The texts of sections are told from the footer after them by its rule.
theorem flatMap_texts_append_inj {ss ss' : List Section} (h : ∀ s ∈ ss, IsListing s.kind s.defects)
    (h' : ∀ s ∈ ss', IsListing s.kind s.defects) {rest rest' : List String}
    (he : ss.flatMap Section.texts ++ "" :: lineText (ruleLine '#') :: rest =
      ss'.flatMap Section.texts ++ "" :: lineText (ruleLine '#') :: rest') : ss = ss' := by
  have hfooter (s : Section) (more rest : List String) :
      s.texts ++ more ≠ "" :: lineText (ruleLine '#') :: rest := by
    intro h
    rw [Section.texts_eq] at h
    exact absurd (List.cons.inj (List.tail_eq_of_cons_eq h)).1.symm ruleLine_ne
  exact Section.delimited_texts.flatMap_append_inj (hfooter · · rest) (hfooter · · rest') h h' he

end Report

-- What a run makes sure of the defects of a kind.
structure KindDefects.Regular (d : KindDefects) : Prop where
  listing : ∀ category, IsListing d.kind (d.inCategory category)
  cleared : d.checksClear = false → d.cleared = []

namespace KindDefects

-- The sections of a kind start over with each kind, and the first of them shows whether it can be cleared.
theorem delimited_sections :
    Delimited (fun d : KindDefects => d.checksClear = false → d.cleared = []) sections := by
  intro d d' rest rest' h h' he
  obtain ⟨kind, checksClear, cleared, missing, unused⟩ := d
  obtain ⟨kind', checksClear', cleared', missing', unused'⟩ := d'
  cases checksClear <;> cases checksClear' <;>
    simp_all [sections_of_checksClear, sections_of_not_checksClear]

theorem flatMap_sections_inj {ds ds' : List KindDefects}
    (h : ∀ d ∈ ds, d.checksClear = false → d.cleared = [])
    (h' : ∀ d ∈ ds', d.checksClear = false → d.cleared = [])
    (he : ds.flatMap sections = ds'.flatMap sections) : ds = ds' := by
  have hne (d : KindDefects) (more : List Report.Section) : d.sections ++ more ≠ [] := by
    cases hc : d.checksClear <;> simp [sections_of_checksClear, sections_of_not_checksClear, hc]
  refine delimited_sections.flatMap_append_inj hne hne h h' ?_
  simpa using he

end KindDefects

namespace Report

def Regular (report : Report) : Prop := ∀ d ∈ report.kinds, d.Regular

def OneLineFiles (report : Report) : Prop :=
  ∀ d ∈ report.kinds, ∀ category, ∀ x ∈ d.inCategory category, ∀ l ∈ x.locations, OneLine l.file

theorem exists_of_mem_sections {report : Report} {s : Section} (h : s ∈ report.sections) :
    ∃ d ∈ report.kinds, s.kind = d.kind ∧ s.defects = d.inCategory s.category := by
  have ⟨d, hd, h⟩ := List.mem_flatMap.mp h
  obtain ⟨category, _, rfl⟩ := List.mem_map.mp h
  exact ⟨d, hd, rfl, rfl⟩

theorem Regular.isListing {report : Report} (h : report.Regular) {s : Section} (hs : s ∈ report.sections) :
    IsListing s.kind s.defects := by
  have ⟨d, hd, hk, hc⟩ := exists_of_mem_sections hs
  exact hk ▸ hc ▸ (h d hd).listing s.category

-- What the header says on the files that were left out.
def skippedText (skipped : Nat) : String :=
  if 0 < skipped then " (" ++ Nat.repr skipped ++ " skipped)" else ""

theorem filesText_eq (report : Report) :
    report.filesText = "Files scanned: " ++ Nat.repr report.scanned ++ skippedText report.skipped := rfl

theorem skippedText_of_pos {n : Nat} (h : 0 < n) :
    skippedText n = " (" ++ (Nat.repr n ++ " skipped)") := by
  rw [skippedText, if_pos h, String.append_assoc]

theorem skippedText_zero : skippedText 0 = "" := rfl

theorem head?_skippedText_of_pos {n : Nat} (h : 0 < n) : (skippedText n).toList.head? = some ' ' := by
  rw [skippedText_of_pos h]
  exact head?_toList_append (head?_toList_ofList ..) _

theorem skippedText_injective : Function.Injective skippedText := by
  intro m n h
  have hhead := congrArg (·.toList.head?) h
  rcases m.eq_zero_or_pos with rfl | hm <;> rcases n.eq_zero_or_pos with rfl | hn
  · rfl
  · simp [head?_skippedText_of_pos hn, skippedText_zero] at hhead
  · simp [head?_skippedText_of_pos hm, skippedText_zero] at hhead
  · rw [skippedText_of_pos hm, skippedText_of_pos hn, String.append_right_inj] at h
    have hnumber (k : Nat) : leadingNumber (Nat.repr k ++ " skipped)") = k :=
      leadingNumber_repr_append k (by simp)
    simpa only [hnumber] using congrArg leadingNumber h

theorem filesText_inj {a b : Report} (h : a.filesText = b.filesText) :
    a.scanned = b.scanned ∧ a.skipped = b.skipped := by
  have hhead (n : Nat) : ∀ c ∈ (skippedText n).toList.head?, c.isDigit = false := by
    rcases n.eq_zero_or_pos with rfl | hn
    · simp [skippedText_zero]
    · simp [head?_skippedText_of_pos hn]
  rw [filesText_eq, filesText_eq, String.append_assoc, String.append_assoc, String.append_right_inj] at h
  have hscanned : a.scanned = b.scanned := by
    simpa only [leadingNumber_repr_append _ (hhead _)] using congrArg leadingNumber h
  rw [hscanned, String.append_right_inj] at h
  exact ⟨hscanned, skippedText_injective h⟩

theorem oneLine_skippedText (n : Nat) : OneLine (skippedText n) := by
  rw [skippedText]
  split
  · exact oneLine_ofList (by decide) |>.append (oneLine_repr n) |>.append (oneLine_ofList (by decide))
  · exact oneLine_ofList (by decide)

theorem oneLine_filesText (report : Report) : OneLine report.filesText :=
  oneLine_ofList (by decide) |>.append (oneLine_repr _) |>.append (oneLine_skippedText _)

theorem oneLine_footerLines (n : Nat) : ∀ t ∈ (footerLines n).map lineText, OneLine t := by
  have hrule : OneLine (String.ofList (List.replicate 80 '#')) := oneLine_ofList (by decide)
  simp only [map_lineText_footerLines, List.forall_mem_cons]
  refine ⟨oneLine_ofList (by decide), hrule, ?_, hrule, by simp⟩
  split
  · exact oneLine_ofList (by decide)
  · exact oneLine_ofList (by decide) |>.append (oneLine_repr n) |>.append (oneLine_ofList (by decide))

-- The lines from the number of files on.
def bodyTexts (report : Report) : List String :=
  report.filesText :: (report.sections.flatMap Section.texts ++
    (footerLines report.issueCount).map lineText)

theorem oneLine_bodyTexts {report : Report} (h : report.Regular) (hf : report.OneLineFiles) :
    ∀ t ∈ report.bodyTexts, OneLine t := by
  rw [bodyTexts, List.forall_mem_cons, List.forall_mem_append]
  refine ⟨oneLine_filesText report, ?_, oneLine_footerLines _⟩
  intro t ht
  have ⟨s, hs, ht⟩ := List.mem_flatMap.mp ht
  have ⟨d, hd, _, hc⟩ := exists_of_mem_sections hs
  exact Section.oneLine_texts (h.isListing hs) (hc ▸ hf d hd s.category) t ht

-- The lines of the header that only tell how the report is shown.
def optionTexts (options : RenderOptions) : List String :=
  ("Mod path: " ++ options.root) ::
    ((if options.staged then ["Mode: Git staged files only"] else []) ++
      (options.outputFile.map fun file => "Output file: " ++ file).toList)

theorem map_lineText_headerLines (report : Report) (options : RenderOptions) :
    (report.headerLines options).map lineText =
      lineText (ruleLine '#') :: ("MOD " ++ report.checker.title) :: lineText (ruleLine '#') ::
        (optionTexts options ++ [report.filesText]) := by
  cases hs : options.staged <;> cases ho : options.outputFile <;>
    simp [headerLines, optionTexts, hs, ho, lineText_plainLine, lineText_styledLine]

theorem toList_render (report : Report) {options : RenderOptions} (h : options.color = false) :
    (report.render options).toList =
      unlines (lineText (ruleLine '#') :: ("MOD " ++ report.checker.title) :: lineText (ruleLine '#') ::
        (optionTexts options ++ report.bodyTexts)) := by
  have hsections : (report.sections.flatMap Section.lines).map lineText =
      report.sections.flatMap Section.texts := List.map_flatMap ..
  rw [render, h, toList_showLines, lines_eq_sections, List.map_append, List.map_append,
    map_lineText_headerLines, hsections]
  simp [bodyTexts]

theorem oneLine_title (checker : Checker) : OneLine ("MOD " ++ checker.title) := by
  cases checker <;> exact oneLine_ofList (by decide) |>.append (oneLine_ofList (by decide))

theorem title_injective : Function.Injective Checker.title := by
  have hfirst : Checker.flagsAndTargets.title.toList.head? = some 'V' := head?_toList_ofList ..
  have hsecond : Checker.scriptedLocalisation.title.toList.head? = some 'S' := head?_toList_ofList ..
  intro a b h
  have hhead := congrArg (·.toList.head?) h
  cases a <;> cases b <;> simp_all

-- The root and the output file may contain anything, but both reports show the same.
theorem bodyTexts_eq_of_render_eq {a b : Report} {options : RenderOptions} (hc : options.color = false)
    (ha : ∀ t ∈ a.bodyTexts, OneLine t) (hb : ∀ t ∈ b.bodyTexts, OneLine t)
    (h : a.render options = b.render options) : a.checker = b.checker ∧ a.bodyTexts = b.bodyTexts := by
  have hchars := congrArg String.toList h
  have hrule : OneLine (lineText (ruleLine '#')) := oneLine_ruleLine (by decide)
  rw [toList_render a hc, toList_render b hc] at hchars
  have ⟨_, hchars⟩ := unlines_cons_inj hrule hrule hchars
  have ⟨htitle, hchars⟩ := unlines_cons_inj (oneLine_title a.checker) (oneLine_title b.checker) hchars
  have ⟨_, hchars⟩ := unlines_cons_inj hrule hrule hchars
  rw [unlines_append, unlines_append, List.append_cancel_left_eq] at hchars
  exact ⟨title_injective (String.append_right_inj _ |>.mp htitle), unlines_inj ha hb hchars⟩

theorem eq_of_bodyTexts_eq {a b : Report} (ha : a.Regular) (hb : b.Regular)
    (hc : a.checker = b.checker) (h : a.bodyTexts = b.bodyTexts) : a = b := by
  have ⟨hfiles, hrest⟩ := List.cons.inj h
  have ⟨hscanned, hskipped⟩ := filesText_inj hfiles
  have hsections := flatMap_texts_append_inj (fun _ => ha.isListing) (fun _ => hb.isListing) hrest
  have hkinds := KindDefects.flatMap_sections_inj (fun d hd => (ha d hd).cleared)
    (fun d hd => (hb d hd).cleared) hsections
  cases a
  cases b
  simp_all

end Report

theorem regular_audit (checker : Checker) (allow : Allowlist) (tree : FileTree) (root : Path)
    (files : List Path) : (audit checker allow tree root files).Regular := by
  intro d hd
  refine ⟨?listing, cleared_eq_nil_of_not_checksClear checker allow tree root files d hd⟩
  case listing =>
    rw [audit_kinds_eq_map] at hd
    obtain ⟨kind, _, rfl⟩ := List.mem_map.mp hd
    intro category
    refine (isGapList_inCategory_defectsOf checker allow tree root files kind category).isListing ?_
    intro o ho
    have ⟨_, _, _, _, ho⟩ := exists_mem_extract_of_mem_occurrencesIn ho
    exact isBlank_of_mem_extract ho

-- The places in a report are in the files that were read.
theorem oneLineFiles_audit (checker : Checker) (allow : Allowlist) (tree : FileTree) {root : Path}
    {files : List Path} (h : ∀ p ∈ files, OneLine (Path.label root p)) :
    (audit checker allow tree root files).OneLineFiles := by
  intro d hd category x hx l hl
  rw [audit_kinds_eq_map] at hd
  obtain ⟨kind, _, rfl⟩ := List.mem_map.mp hd
  rw [(isGapList_inCategory_defectsOf checker allow tree root files kind category).locations x hx] at hl
  obtain ⟨o, ho, rfl⟩ := List.mem_map.mp hl
  have ⟨p, hp, _, _, ho⟩ := exists_mem_extract_of_mem_occurrencesIn (List.mem_of_mem_filter ho)
  exact file_of_mem_extract ho ▸ h p hp

-- A report without color loses nothing: its text determines it, if it is as those of runs are and no file
-- name breaks a line.
theorem plain_render_determines_report :
    (∀ checker allow tree root files, (audit checker allow tree root files).Regular) ∧
    ∀ (options : RenderOptions) (a b : Report), options.color = false → a.Regular → b.Regular →
      a.OneLineFiles → b.OneLineFiles → a.render options = b.render options → a = b := by
  refine ⟨regular_audit, ?_⟩
  intro options a b hc ha hb hfa hfb h
  have ⟨hchecker, hbody⟩ := Report.bodyTexts_eq_of_render_eq hc (Report.oneLine_bodyTexts ha hfa)
    (Report.oneLine_bodyTexts hb hfb) h
  exact Report.eq_of_bodyTexts_eq ha hb hchecker hbody

-- A mod with a file whose name looks like a place and a name.
def dashedTree : FileTree where
  top := .dir [([0x61, 0x3a, 0x31, 0x20, 0x2d, 0x20, 0x6e, 0x2e, 0x74, 0x78, 0x74],
    .file (Utf8.encode "localization_key = n"))]

def dashedFile : Path := ⟨[0x2f, 0x61, 0x3a, 0x31, 0x20, 0x2d, 0x20, 0x6e, 0x2e, 0x74, 0x78, 0x74]⟩

def dashedReport : Report where
  checker := .scriptedLocalisation
  scanned := 1
  skipped := 0
  kinds := [⟨.scriptedLocalisation, false, [], [],
    [⟨.scriptedLocalisation, "n", [⟨"a:1 - n.txt", 1⟩]⟩]⟩]

theorem plain_render_determines_dashedReport :
    audit .scriptedLocalisation .empty dashedTree ⟨[0x2f]⟩ [dashedFile] = dashedReport := by
  have hlabel : ∀ p ∈ [dashedFile], OneLine (Path.label ⟨[0x2f]⟩ p) := by decide +kernel
  have hregular : dashedReport.Regular := by
    intro d hd
    obtain rfl := List.mem_singleton.mp hd
    refine ⟨fun category => ?_, fun _ => rfl⟩
    cases category <;> constructor <;> simp [KindDefects.inCategory, isBlank, blankRanges, inRanges]
  have hfiles : dashedReport.OneLineFiles := by
    intro d hd category
    obtain rfl := List.mem_singleton.mp hd
    cases category <;> simp [KindDefects.inCategory, OneLine]
  obtain ⟨hrun, hinj⟩ := plain_render_determines_report
  exact hinj {} _ _ rfl (hrun _ _ _ _ _) hregular (oneLineFiles_audit _ _ _ hlabel) hfiles
    (by decide +kernel)

end CrossRef
