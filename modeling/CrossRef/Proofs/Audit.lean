import CrossRef.Proofs.Defect
import CrossRef.Proofs.Extraction
import CrossRef.Proofs.Utf8
import CrossRef.Validation

namespace CrossRef

open Text

theorem toOption_ok (text : String) : (.ok text : Except Failure String).toOption = some text := rfl

theorem toOption_error (failure : Failure) :
    (.error failure : Except Failure String).toOption = none := rfl

theorem readSource_eq_ok_iff {tree : FileTree} {p : Path} {text : String} :
    readSource tree p = .ok text ↔ tree.read p = .ok (Utf8.encode text) := by
  unfold readSource
  split
  case h_1 fault h => simp [h]
  case h_2 bytes h =>
    have hd := @Utf8.decode?_eq_some_iff bytes text.toList
    rw [String.ofList_toList] at hd
    rw [h, Except.ok.injEq, ← hd]
    split
    case h_1 chars hc => simp [hc, ← String.toList_inj]
    case h_2 hc       => simp [hc]

def isReadable (tree : FileTree) (p : Path) : Bool := (readSource tree p).toOption.isSome

-- What a checker finds in the files that can be read, file by file.
def Checker.occurrencesIn (checker : Checker) (allow : Allowlist) (tree : FileTree) (root : Path)
    (files : List Path) : List Occurrence :=
  files.flatMap fun p =>
    match readSource tree p with
    | .ok text => extract checker.rules allow (Path.label root p) text
    | .error _ => []

section

variable (checker : Checker) (allow : Allowlist) (tree : FileTree) (root : Path) (files : List Path)

theorem occurrences_readable :
    checker.occurrences allow (readable tree root files) =
      checker.occurrencesIn allow tree root files := by
  induction files
  case nil => rfl
  case cons p rest ih =>
    simp only [Checker.occurrences, readable, Checker.occurrencesIn] at ih ⊢
    cases h : readSource tree p <;> simp [h, ih, toOption_ok, toOption_error]

theorem length_readable : (readable tree root files).length = files.countP (isReadable tree) := by
  rw [readable, List.length_filterMap_eq_countP]
  congr 1
  funext p
  simp [isReadable]

variable {checker allow tree root} in
theorem occurrencesIn_cons (p : Path) (files : List Path) :
    checker.occurrencesIn allow tree root (p :: files) =
      checker.occurrencesIn allow tree root [p] ++ checker.occurrencesIn allow tree root files := by
  simp [Checker.occurrencesIn]

-- Files in which nothing is found can be left out.
theorem occurrencesIn_filter {keep : Path → Bool}
    (h : ∀ p, keep p = false → checker.occurrencesIn allow tree root [p] = []) :
    checker.occurrencesIn allow tree root (files.filter keep) =
      checker.occurrencesIn allow tree root files := by
  induction files
  case nil => rfl
  case cons p rest ih =>
    cases hk : keep p
    case true  => rw [List.filter_cons_of_pos hk, occurrencesIn_cons, ih, ← occurrencesIn_cons]
    case false => rw [List.filter_cons_of_neg (by simp [hk]), ih, occurrencesIn_cons, h p hk, List.nil_append]

theorem occurrencesIn_filter_isReadable :
    checker.occurrencesIn allow tree root (files.filter (isReadable tree)) =
      checker.occurrencesIn allow tree root files := by
  refine occurrencesIn_filter checker allow tree root files fun p hp => ?_
  cases h : readSource tree p <;> simp_all [isReadable, Checker.occurrencesIn, toOption_ok, toOption_error]

theorem occurrencesIn_eq_filter :
    checker.occurrencesIn allow tree root files =
      (checker.occurrencesIn .empty tree root files).filter (!allow.isPlaceholder ·.name) := by
  simp only [Checker.occurrencesIn, List.filter_flatMap]
  congr 1
  funext p
  cases readSource tree p
  case error => rfl
  case ok    => exact extract_eq_filter ..

variable {checker allow tree root files} in
theorem exists_mem_extract_of_mem_occurrencesIn {o : Occurrence}
    (h : o ∈ checker.occurrencesIn allow tree root files) :
    ∃ p ∈ files, ∃ text, readSource tree p = .ok text ∧
      o ∈ extract checker.rules allow (Path.label root p) text := by
  have ⟨p, hp, h⟩ := List.mem_flatMap.mp h
  split at h
  · rename_i text ht
    exact ⟨p, hp, text, ht, h⟩
  · simp at h

theorem kind_mem_of_mem_occurrencesIn {o : Occurrence}
    (h : o ∈ checker.occurrencesIn allow tree root files) : o.kind ∈ checker.kinds := by
  have ⟨_, _, _, _, h⟩ := exists_mem_extract_of_mem_occurrencesIn h
  have ⟨rule, hr, hk, _⟩ := exists_rule_of_mem_extract h
  exact hk ▸ Checker.kind_mem_kinds hr

theorem audit_kinds :
    (audit checker allow tree root files).kinds = checker.kinds.map fun kind =>
      (Ledger.ofOccurrences (checker.occurrencesIn allow tree root files)).analyze kind allow
        (checker.clears kind) := by
  rw [← occurrences_readable]
  rfl

-- What a checker reports on a kind.
def Checker.defectsOf (kind : Kind) : KindDefects :=
  (Ledger.ofOccurrences (checker.occurrencesIn allow tree root files)).analyze kind allow
    (checker.clears kind)

theorem audit_kinds_eq_map :
    (audit checker allow tree root files).kinds =
      checker.kinds.map (checker.defectsOf allow tree root files) :=
  audit_kinds ..

theorem audit_scanned :
    (audit checker allow tree root files).scanned = files.countP (isReadable tree) :=
  length_readable tree root files

theorem audit_skipped :
    (audit checker allow tree root files).skipped = files.countP (!isReadable tree ·) := by
  have h := List.length_eq_countP_add_countP (isReadable tree) (l := files)
  have hs : (audit checker allow tree root files).skipped =
      files.length - (readable tree root files).length := rfl
  rw [hs, length_readable, h]
  simp

end

theorem isGapList_inCategory_analyze (os : List Occurrence) (kind : Kind) (allow : Allowlist)
    (checksClear : Bool) (category : Category) :
    IsGapList os kind category.present category.absent (allow.isIgnored kind · category)
      (((Ledger.ofOccurrences os).analyze kind allow checksClear).inCategory category) := by
  have h := (Ledger.Records.ofOccurrences os).isGapList_gaps kind category.present category.absent
    (allow.isIgnored kind · category)
  cases category <;> exact h

theorem isGapList_inCategory_defectsOf (checker : Checker) (allow : Allowlist) (tree : FileTree)
    (root : Path) (files : List Path) (kind : Kind) (category : Category) :
    IsGapList (checker.occurrencesIn allow tree root files) kind category.present category.absent
      (allow.isIgnored kind · category)
      ((checker.defectsOf allow tree root files kind).inCategory category) :=
  isGapList_inCategory_analyze ..

-- Nothing is cleared where no rule looks for clears.
theorem cleared_eq_nil_of_not_checksClear (checker : Checker) (allow : Allowlist) (tree : FileTree)
    (root : Path) (files : List Path) :
    ∀ d ∈ (audit checker allow tree root files).kinds, d.checksClear = false → d.cleared = [] := by
  rw [audit_kinds_eq_map, List.forall_mem_map]
  intro kind _ (hclear : checker.clears kind = false)
  have hlist := isGapList_inCategory_defectsOf checker allow tree root files kind .clearedNotSet
  refine List.eq_nil_iff_forall_not_mem.mpr fun d hd => ?_
  have ⟨o, ho, hk, _, ha⟩ := ((hlist.mem_iff d.name).mp (List.mem_map_of_mem hd)).1
  have ⟨_, _, _, _, ho⟩ := exists_mem_extract_of_mem_occurrencesIn ho
  have ⟨rule, hr, hrk, hra⟩ := exists_rule_of_mem_extract ho
  refine Bool.eq_false_iff.mp hclear (List.any_eq_true.mpr ⟨rule, hr, ?_⟩)
  simp [hrk, hk, hra, ha, Category.present]

-- A report counts every file once, as read or as left out. What it lists follows from the occurrences in
-- the files that can be read, and from nothing else: in each category of each kind, the symbols with this
-- gap that are not on the allow-list.
theorem audit_lists_exactly_gaps (checker : Checker) (allow : Allowlist) (tree : FileTree) (root : Path)
    (files : List Path) :
    let os := checker.occurrencesIn allow tree root files
    let report := audit checker allow tree root files
    (∀ p text, readSource tree p = .ok text ↔ tree.read p = .ok (Utf8.encode text)) ∧
    report.checker = checker ∧
    report.scanned = files.countP (isReadable tree) ∧
    report.skipped = files.countP (!isReadable tree ·) ∧
    (audit checker allow tree root (files.filter (isReadable tree))).kinds = report.kinds ∧
    (∀ o ∈ os, o.kind ∈ checker.kinds) ∧
    report.kinds.map (·.kind) = checker.kinds ∧
    ∀ d ∈ report.kinds, d.checksClear = checker.clears d.kind ∧ ∀ category,
      IsGapList os d.kind category.present category.absent (allow.isIgnored d.kind · category)
        (d.inCategory category) := by
  refine ⟨fun _ _ => readSource_eq_ok_iff, rfl, ?scanned, ?skipped, ?unread, ?kinds, ?order, ?gaps⟩
  case scanned => exact audit_scanned ..
  case skipped => exact audit_skipped ..
  case unread  => simp only [audit_kinds, occurrencesIn_filter_isReadable]
  case kinds   => exact fun o ho => kind_mem_of_mem_occurrencesIn checker allow tree root files ho
  case order   => simp [audit_kinds, Function.comp_def, Ledger.analyze]
  case gaps =>
    intro d hd
    rw [audit_kinds] at hd
    obtain ⟨kind, _, rfl⟩ := List.mem_map.mp hd
    exact ⟨rfl, isGapList_inCategory_analyze _ kind allow _⟩

-- The defects of a kind without those that an allow-list hides.
def KindDefects.without (d : KindDefects) (allow : Allowlist) : KindDefects where
  kind := d.kind
  checksClear := d.checksClear
  cleared := d.cleared.filter fun x => !allow.isIgnored d.kind x.name .clearedNotSet
  missing := d.missing.filter fun x => !allow.isIgnored d.kind x.name .missingDefinition
  unused := d.unused.filter fun x => !allow.isIgnored d.kind x.name .unusedDefinition

theorem sitesIn_filter_of_not_isPlaceholder {os : List Occurrence} {allow : Allowlist} {name : String}
    (h : allow.isPlaceholder name = false) (kind : Kind) (action : Action) :
    sitesIn (os.filter (!allow.isPlaceholder ·.name)) kind name action =
      sitesIn os kind name action := by
  rw [sitesIn, sitesIn, List.filter_filter]
  congr 1
  refine List.filter_congr fun o _ => ?_
  by_cases hn : o.name = name <;> simp [hn, h]

-- Removing placeholders before the analysis and removing hidden defects after it come to the same.
theorem inCategory_analyze_filter (os : List Occurrence) (kind : Kind) (allow : Allowlist)
    (checksClear : Bool) (category : Category) :
    ((Ledger.ofOccurrences (os.filter (!allow.isPlaceholder ·.name))).analyze kind allow
        checksClear).inCategory category =
      (((Ledger.ofOccurrences os).analyze kind .empty checksClear).inCategory category).filter
        fun d => !allow.isIgnored kind d.name category := by
  have hall := isGapList_inCategory_analyze os kind .empty checksClear category
  have hrest := hall.filter (allow.isIgnored kind · category)
  simp only [Allowlist.isIgnored_empty, Bool.false_or] at hrest
  refine (isGapList_inCategory_analyze _ kind allow checksClear category).unique <|
    hrest.congr fun name action hn => (sitesIn_filter_of_not_isPlaceholder ?_ kind action).symm
  exact Bool.eq_false_iff.mpr fun hp =>
    Bool.eq_false_iff.mp hn (Allowlist.isIgnored_of_isPlaceholder hp)

theorem analyze_filter (os : List Occurrence) (kind : Kind) (allow : Allowlist) (checksClear : Bool) :
    (Ledger.ofOccurrences (os.filter (!allow.isPlaceholder ·.name))).analyze kind allow checksClear =
      ((Ledger.ofOccurrences os).analyze kind .empty checksClear).without allow := by
  have h := inCategory_analyze_filter os kind allow checksClear
  have hc := h .clearedNotSet
  have hm := h .missingDefinition
  have hu := h .unusedDefinition
  simp only [Ledger.analyze, KindDefects.inCategory, KindDefects.without] at hc hm hu ⊢
  rw [hc, hm, hu]

-- An allow-list hides defects and does nothing else.
theorem audit_eq_without (checker : Checker) (allow : Allowlist) (tree : FileTree) (root : Path)
    (files : List Path) :
    audit checker allow tree root files =
      { audit checker .empty tree root files with
        kinds := (audit checker .empty tree root files).kinds.map (·.without allow) } := by
  have hk : (audit checker allow tree root files).kinds =
      (audit checker .empty tree root files).kinds.map (·.without allow) := by
    rw [audit_kinds, audit_kinds, occurrencesIn_eq_filter, List.map_map]
    exact List.map_congr_left fun kind _ => analyze_filter _ kind allow _
  rw [← hk]
  rfl

theorem validate_eq_ok_iff {checker : Checker} {config : Config} {tree : FileTree}
    {repo? : Option Repository} {root : Path} {staged : Bool} {report : Report} :
    validate checker config tree repo? root staged = .ok report ↔
      ∃ selection files, config.selection checker.extensions = .ok selection ∧
        selection.files tree repo? root staged = .ok files ∧
        report = audit checker config.allowlist tree root files := by
  unfold validate
  cases config.selection checker.extensions
  case error => simp [Except.mapError, bind, Except.bind]
  case ok selection =>
    cases hf : selection.files tree repo? root staged <;>
      simp [hf, Except.mapError, bind, Except.bind, pure, Except.pure, eq_comm]

end CrossRef
