import CrossRef.Proofs.LabelOrder
import CrossRef.Proofs.Occurrence
import CrossRef.Proofs.Staged

namespace CrossRef

open Text

-- A line of a file, before the file is named relative to a root.
structure Site where
  path : Path
  line : Nat

namespace Site

def location (root : Path) (s : Site) : Location where
  file := Path.label root s.path
  line := s.line

-- The site is a line of the text that is read at its path, and the name stands on it.
def Shows (tree : FileTree) (name : String) (s : Site) : Prop :=
  ∃ text line, readSource tree s.path = .ok text ∧ 1 ≤ s.line ∧
    (lines text.toList)[s.line - 1]? = some line ∧ name.toList <:+: line

-- Not after another site: in a file that is listed before, or in the same file and not on a later line.
def Before (s t : Site) : Prop := s.path.lt t.path = true ∨ (s.path = t.path ∧ s.line ≤ t.line)

-- The site stands before another one in a listing, and its path after that of the other as text.
def Overtaken (root : Path) (s t : Site) : Prop :=
  Path.Overtaken (Path.namesBelow root s.path) (Path.namesBelow root t.path)

end Site

section Runs

variable {checker : Checker} {allow : Allowlist} {tree : FileTree} {root : Path}

theorem pairwise_line_occurrencesIn (p : Path) :
    (checker.occurrencesIn allow tree root [p]).Pairwise (·.location.line ≤ ·.location.line) := by
  simp only [Checker.occurrencesIn, List.flatMap_singleton]
  split
  · exact pairwise_line_extract _
  · exact .nil

theorem shows_of_mem_occurrencesIn {p : Path} {o : Occurrence}
    (h : o ∈ checker.occurrencesIn allow tree root [p]) :
    Site.Shows tree o.name ⟨p, o.location.line⟩ := by
  simp only [Checker.occurrencesIn, List.flatMap_singleton] at h
  split at h
  case h_1 text hread =>
    have hsound := Occurrence.sound_of_mem_extract h
    obtain ⟨cls, line, _, hline, hname⟩ := hsound.on_line
    refine ⟨text, line, hread, hsound.one_le, hline, ?_⟩
    split at hname
    · exact hname
    · exact hname.trans (uncommentedFrom_isPrefix false line).isInfix
  case h_2 => simp at h

-- The places of a symbol in one file.
theorem exists_sites_of_file (p : Path) (kind : Kind) (name : String) (action : Action) :
    ∃ sites : List Site,
      sitesIn (checker.occurrencesIn allow tree root [p]) kind name action = sites.map (Site.location root) ∧
      (∀ s ∈ sites, s.path = p ∧ s.Shows tree name) ∧ sites.Pairwise Site.Before := by
  let found := (checker.occurrencesIn allow tree root [p]).filter fun o =>
    o.kind = kind ∧ o.name = name ∧ o.action = action
  refine ⟨found.map fun o => ⟨p, o.location.line⟩, ?places, ?shown, ?sorted⟩
  case places =>
    rw [sitesIn, List.map_map]
    refine List.map_congr_left fun o ho => ?_
    have hfile := file_of_mem_occurrencesIn (List.mem_of_mem_filter ho)
    exact congrArg (Location.mk · o.location.line) hfile
  case shown =>
    intro s hs
    obtain ⟨o, ho, rfl⟩ := List.mem_map.mp hs
    obtain ⟨hmem, hsymbol⟩ := List.mem_filter.mp ho
    obtain ⟨_, rfl, _⟩ := of_decide_eq_true hsymbol
    exact ⟨rfl, shows_of_mem_occurrencesIn hmem⟩
  case sorted =>
    refine List.pairwise_map.mpr (((pairwise_line_occurrencesIn p).filter _).imp fun hle => ?_)
    exact .inr ⟨rfl, hle⟩

-- The places of a symbol are in the order of the files, and within a file in the order of its lines.
theorem exists_sites {files : List Path} (h : files.Pairwise (·.lt ·)) (kind : Kind) (name : String)
    (action : Action) :
    ∃ sites : List Site,
      sitesIn (checker.occurrencesIn allow tree root files) kind name action =
        sites.map (Site.location root) ∧
      (∀ s ∈ sites, s.path ∈ files ∧ s.Shows tree name) ∧ sites.Pairwise Site.Before := by
  induction files
  case nil => exact ⟨[], rfl, by simp, .nil⟩
  case cons p rest ih =>
    have ⟨hp, hrest⟩ := List.pairwise_cons.mp h
    have ⟨first, hfirst, hin, hsorted⟩ := @exists_sites_of_file checker allow tree root p kind name action
    have ⟨others, hothers, hin', hsorted'⟩ := ih hrest
    refine ⟨first ++ others, ?places, ?files, List.pairwise_append.mpr ⟨hsorted, hsorted', ?cross⟩⟩
    case places => rw [occurrencesIn_cons, sitesIn_append, hfirst, hothers, List.map_append]
    case files =>
      refine List.forall_mem_append.mpr
        ⟨fun s hs => ⟨?_, (hin s hs).2⟩, fun s hs => (hin' s hs).imp_left (List.mem_cons_of_mem _)⟩
      exact (hin s hs).1 ▸ List.mem_cons_self ..
    case cross => exact fun s hs t ht => .inl ((hin s hs).1 ▸ hp _ (hin' t ht).1)

end Runs

-- In a walk, a later site has a lesser location exactly if it overtakes.
theorem location_lt_iff_overtaken {selection : Selection} {tree : FileTree} (hp : tree.top.Proper) {root : Path}
    {s t : Site} (hs : s.path ∈ selection.walk tree root) (ht : t.path ∈ selection.walk tree root)
    (hplain : Path.PlainBelow root s.path) (hplain' : Path.PlainBelow root t.path) (h : s.Before t) :
    t.location root < s.location root ↔ s.Overtaken root t := by
  obtain ⟨path, line⟩ := s
  obtain ⟨path', line'⟩ := t
  obtain hlt | ⟨heq, hle⟩ := h
  case inl =>
    have hne : path ≠ path' := Path.ne_of_lt hlt
    obtain hself | hbelow := FileTree.files_eq_self_or_below hp root
    · have hs := List.mem_of_mem_filter hs
      have ht := List.mem_of_mem_filter ht
      rw [hself, List.mem_singleton] at hs ht
      exact absurd (hs.trans ht.symm) hne
    · obtain ⟨ns, hns, hn, rfl⟩ := hbelow path (List.mem_of_mem_filter hs)
      obtain ⟨ms, hms, hm, rfl⟩ := hbelow path' (List.mem_of_mem_filter ht)
      have hlabel : Path.label root (root.descend ms) ≠ Path.label root (root.descend ns) := by
        intro he
        have hjoin := congrArg Utf8.encode he
        rw [Path.encode_label_descend hms hm hplain', Path.encode_label_descend hns hn hplain] at hjoin
        rw [← Path.split_joinPieces hms hm, hjoin, Path.split_joinPieces hns hn] at hne
        exact hne rfl
      have hiff := Path.label_lt_label_iff hns hn hms hm hplain hplain' hlt
      refine Iff.trans ⟨fun hloc => ?_, .inl⟩ hiff
      exact hloc.resolve_right fun he => hlabel he.1
  case inr =>
    obtain rfl : path = path' := heq
    refine iff_of_false ?_ (Path.not_overtaken_self _)
    rintro (hlt | ⟨_, hlt⟩)
    · exact String.lt_irrefl _ hlt
    · exact Nat.not_lt.mpr hle hlt

-- The locations of a defect are in the order of the walk, which is not that of the labels as texts: a file
-- in a directory stands before a file next to it whose name goes on with a byte less than a slash. Where
-- no site is overtaken so, and only there, the locations are in their own order.
theorem locations_follow_walk {checker : Checker} {config : Config} {tree : FileTree}
    {repo? : Option Repository} {root : Path} {report : Report} (hp : tree.top.Proper)
    (hv : validate checker config tree repo? root false = .ok report) :
    ∃ selection, config.selection checker.extensions = .ok selection ∧
      ∀ d ∈ report.kinds, ∀ category, (d.inCategory category).Pairwise Defect.Before ∧
        ∀ x ∈ d.inCategory category, ∃ sites : List Site,
          x.locations = sites.map (Site.location root) ∧
          (∀ s ∈ sites, s.path ∈ selection.walk tree root ∧ s.Shows tree x.name) ∧
          sites.Pairwise Site.Before ∧
          ((∀ s ∈ sites, Path.PlainBelow root s.path) →
            sites.Pairwise (fun s t => t.location root < s.location root ↔ s.Overtaken root t) ∧
            (x.locations.Pairwise (fun l m => ¬m < l) ↔ sites.Pairwise (fun s t => ¬s.Overtaken root t))) := by
  obtain ⟨selection, files, hs, hf, rfl⟩ := validate_eq_ok_iff.mp hv
  obtain rfl : selection.walk tree root = files := Except.ok.inj hf
  refine ⟨selection, hs, fun d hd category => ?_⟩
  rw [audit_kinds_eq_map] at hd
  obtain ⟨kind, _, rfl⟩ := List.mem_map.mp hd
  have hlist := isGapList_inCategory_defectsOf checker config.allowlist tree root
    (selection.walk tree root) kind category
  refine ⟨hlist.sorted, fun x hx => ?_⟩
  have ⟨sites, hplaces, hin, hbefore⟩ := @exists_sites checker config.allowlist tree root
    (selection.walk tree root) (Selection.pairwise_walk hp root) kind x.name category.present
  have hlocations := (hlist.locations x hx).trans hplaces
  refine ⟨sites, hlocations, hin, hbefore, fun hplain => ?_⟩
  have hovertaken : sites.Pairwise fun s t => t.location root < s.location root ↔ s.Overtaken root t :=
    hbefore.imp_of_mem fun hs ht =>
      location_lt_iff_overtaken hp (hin _ hs).1 (hin _ ht).1 (hplain _ hs) (hplain _ ht)
  refine ⟨hovertaken, ?_⟩
  rw [hlocations, List.pairwise_map]
  constructor
  · exact fun h => (h.and hovertaken).imp fun ⟨hlt, hiff⟩ => hiff.not.mp hlt
  · exact fun h => (h.and hovertaken).imp fun ⟨hlt, hiff⟩ => hiff.not.mpr hlt

-- A directory `a` with a file, and next to it the file `a.txt`.
def overtakenTree : FileTree where
  top := .dir [([0x61], .dir [([0x78, 0x2e, 0x74, 0x78, 0x74], .file (Utf8.encode "has_state_flag = x"))]),
    ([0x61, 0x2e, 0x74, 0x78, 0x74], .file (Utf8.encode "has_state_flag = x"))]

def overtakenFiles : List Path :=
  [⟨[0x2f, 0x61, 0x2f, 0x78, 0x2e, 0x74, 0x78, 0x74]⟩, ⟨[0x2f, 0x61, 0x2e, 0x74, 0x78, 0x74]⟩]

def overtakenReport : Report :=
  audit .flagsAndTargets ({} : Config).allowlist overtakenTree ⟨[0x2f]⟩ overtakenFiles

def overtakenDefect : Defect where
  kind := .stateFlag
  name := "x"
  locations := [⟨"a/x.txt", 1⟩, ⟨"a.txt", 1⟩]

def defaultSelection : Selection where
  extensions := Checker.flagsAndTargets.extensions
  ignoredDirs := ({} : Config).ignoredDirs
  excluded := []

theorem overtakenTree_wellFormed : overtakenTree.WellFormed := .of_addresses (by decide +kernel)

theorem walk_overtakenTree : defaultSelection.walk overtakenTree ⟨[0x2f]⟩ = overtakenFiles := by
  have hlinks (below : Address) := @Node.ne_link_of_addresses overtakenTree.top (by decide +kernel) below
  refine Path.eq_of_pairwise_lt (Selection.pairwise_walk overtakenTree_wellFormed.proper _) (by decide) ?_
  intro p
  have hfiles := @FileTree.mem_files_iff overtakenTree defaultSelection.enters p
    overtakenTree_wellFormed [] _ rfl rfl hlinks
  rw [Selection.walk, List.mem_filter]
  constructor
  · rintro ⟨hm, hacc⟩
    obtain ⟨names, content, hget, _, _, rfl⟩ := hfiles.mp hm
    have hnames : ∀ names ∈ overtakenTree.top.addresses,
        defaultSelection.accepts (Path.label ⟨[0x2f]⟩ (Path.descend ⟨[0x2f]⟩ names)) = true →
          Path.descend ⟨[0x2f]⟩ names ∈ overtakenFiles := by decide +kernel
    exact hnames names (Node.mem_addresses (Option.isSome_of_eq_some hget)) hacc
  · intro hm
    obtain rfl | rfl : p = _ ∨ p = _ := by simpa [overtakenFiles] using hm
    · refine ⟨hfiles.mpr ⟨[[0x61], [0x78, 0x2e, 0x74, 0x78, 0x74]], _, rfl, ?_, ?_, rfl⟩, ?_⟩ <;> decide +kernel
    · refine ⟨hfiles.mpr ⟨[[0x61, 0x2e, 0x74, 0x78, 0x74]], _, rfl, ?_, ?_, rfl⟩, ?_⟩ <;> decide +kernel

theorem validate_overtakenTree :
    validate .flagsAndTargets {} overtakenTree none ⟨[0x2f]⟩ false = .ok overtakenReport :=
  validate_eq_ok_iff.mpr
    ⟨defaultSelection, _, rfl, rfl, by rw [walk_overtakenTree]; rfl⟩

theorem mem_overtakenReport : ∃ d ∈ overtakenReport.kinds, overtakenDefect ∈ d.inCategory .missingDefinition := by
  decide +kernel

theorem locations_follow_walk_overtakenTree : ∃ sites : List Site,
    overtakenDefect.locations = sites.map (Site.location ⟨[0x2f]⟩) ∧
      (∀ s ∈ sites, s.Shows overtakenTree overtakenDefect.name) ∧ sites.Pairwise Site.Before ∧
      ¬sites.Pairwise (fun s t => ¬s.Overtaken ⟨[0x2f]⟩ t) := by
  have ⟨selection, hs, hkinds⟩ := locations_follow_walk overtakenTree_wellFormed.proper validate_overtakenTree
  obtain rfl : defaultSelection = selection := Except.ok.inj hs
  have ⟨d, hd, hx⟩ := mem_overtakenReport
  have ⟨sites, hlocations, hin, hbefore, hplain⟩ := (hkinds d hd .missingDefinition).2 _ hx
  have hfiles : ∀ p ∈ overtakenFiles, Path.below ⟨[0x2f]⟩ p = Utf8.encode (Path.label ⟨[0x2f]⟩ p) ∧
      0x5c ∉ Path.below ⟨[0x2f]⟩ p := by decide +kernel
  rw [walk_overtakenTree] at hin
  have ⟨_, hiff⟩ := hplain fun s hs => ⟨⟨_, (hfiles _ (hin s hs).1).1⟩, (hfiles _ (hin s hs).1).2⟩
  refine ⟨sites, hlocations, fun s hs => (hin s hs).2, hbefore, hiff.not.mp ?_⟩
  have hless : (⟨"a.txt", 1⟩ : Location) < ⟨"a/x.txt", 1⟩ := by decide
  simp [overtakenDefect, hless]

theorem exists_locations_not_sorted : ∃ (tree : FileTree) (report : Report),
    tree.top.Proper ∧ validate .flagsAndTargets {} tree none ⟨[0x2f]⟩ false = .ok report ∧
      ∃ d ∈ report.kinds, ∃ x ∈ d.inCategory .missingDefinition, ∃ l m,
        x.locations = [l, m] ∧ m < l :=
  have ⟨d, hd, hx⟩ := mem_overtakenReport
  ⟨overtakenTree, overtakenReport, overtakenTree_wellFormed.proper, validate_overtakenTree, d, hd, _, hx, _, _,
    rfl, by decide⟩

end CrossRef
