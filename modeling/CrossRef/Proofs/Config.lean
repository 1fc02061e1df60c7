import CrossRef.Config.Reader
import CrossRef.Validation
import Mathlib.Data.String.Basic

namespace CrossRef

open Text

namespace Config

-- The keys of filters are distinct, since each of them is less than the next one.
def Ascending (kinds : List (String × KindFilter)) : Prop := kinds.Pairwise fun a b => a.1 < b.1

theorem Ascending.nodup_keys {kinds : List (String × KindFilter)} (h : Ascending kinds) :
    (kinds.map (·.1)).Nodup :=
  List.pairwise_map.mpr <| h.imp ne_of_lt

theorem mem_of_mem_insertFilter {key : String} {filter : KindFilter} {kinds : List (String × KindFilter)}
    {pair : String × KindFilter} (h : pair ∈ insertFilter key filter kinds) :
    pair.1 = key ∨ pair ∈ kinds := by
  induction kinds
  case nil => exact .inl (by simp_all [insertFilter])
  case cons first rest ih =>
    rw [insertFilter] at h
    split at h
    · grind
    · split at h <;> grind

theorem Ascending.insertFilter {kinds : List (String × KindFilter)} (h : Ascending kinds) (key : String)
    (filter : KindFilter) : Ascending (insertFilter key filter kinds) := by
  induction kinds
  case nil => simp [Config.insertFilter, Ascending]
  case cons first rest ih =>
    have ⟨hfirst, hrest⟩ := List.pairwise_cons.mp h
    rw [Config.insertFilter]
    split
    case isTrue he => exact List.pairwise_cons.mpr ⟨fun pair hp => he ▸ hfirst pair hp, hrest⟩
    case isFalse hne =>
      split
      case isTrue hlt =>
        refine List.pairwise_cons.mpr ⟨fun pair hp => ?_, h⟩
        obtain rfl | hp := List.mem_cons.mp hp
        · exact hlt
        · exact hlt.trans (hfirst pair hp)
      case isFalse hlt =>
        refine List.pairwise_cons.mpr ⟨fun pair hp => ?_, ih hrest⟩
        obtain he | hp := mem_of_mem_insertFilter hp
        · exact he ▸ lt_of_le_of_ne (not_lt.mp hlt) (Ne.symm hne)
        · exact hfirst pair hp

-- Whatever is read has a property.
def Yields {α : Type} (read : Decode α) (p : α → Prop) : Prop :=
  ∀ count a count', read.run count = some (a, count') → p a

namespace Yields

variable {α β : Type} {p : α → Prop} {q : β → Prop}

theorem trivial (read : Decode α) : Yields read fun _ => True :=
  fun _ _ _ _ => .intro

theorem pure {a : α} (ha : p a) : Yields (pure a) p := by
  intro count b count' h
  cases h
  exact ha

theorem failure : Yields (failure : Decode α) p := by
  intro count a count' h
  cases h

theorem bind {read : Decode β} {next : β → Decode α} (hr : Yields read q)
    (hn : ∀ b, q b → Yields (next b) p) : Yields (read >>= next) p := by
  intro count a count' h
  rw [StateT.run_bind] at h
  obtain ⟨⟨b, between⟩, hb, ha⟩ := Option.bind_eq_some_iff.mp h
  exact hn b (hr count b between hb) between a count' ha

theorem foldlM {step : α → β → Decode α} (hs : ∀ a b, p a → Yields (step a b) p) (items : List β)
    {a : α} (ha : p a) : Yields (items.foldlM step a) p := by
  induction items generalizing a
  case nil => exact pure ha
  case cons item rest ih => exact (hs a item ha).bind fun _ => ih

theorem once {read : Decode α} (hr : Yields read p) (old : Option α) :
    Yields (once old read) fun found => ∀ a ∈ found, p a := by
  unfold Config.once
  split
  · exact failure
  · exact hr.bind fun a ha => pure (by simpa using ha)

end Yields

theorem yields_filters (doc : Yaml.Document) (node : Yaml.Node) : Yields (filters doc node) Ascending := by
  refine (Yields.trivial _).bind fun pairs _ => ?_
  refine Yields.foldlM (fun kinds pair hk => ?_) pairs .nil
  refine (Yields.trivial _).bind fun key _ => (Yields.trivial _).bind fun filter _ => ?_
  exact .pure (hk.insertFilter key filter)

theorem yields_add (doc : Yaml.Document) (fields : Fields) (pair : Yaml.Node × Yaml.Node)
    (h : ∀ kinds ∈ fields.kinds, Ascending kinds) :
    Yields (fields.add doc pair) fun fields => ∀ kinds ∈ fields.kinds, Ascending kinds := by
  have hother {α : Type} (read : Decode α) (set : α → Fields) (hs : ∀ a, (set a).kinds = fields.kinds) :
      Yields (do return set (← read)) fun fields => ∀ kinds ∈ fields.kinds, Ascending kinds :=
    (Yields.trivial read).bind fun a _ => .pure (hs a ▸ h)
  -- One case for each field; all but the last known one leave the filters as they are.
  refine (Yields.trivial _).bind fun key _ => ?_
  split
  · exact hother _ _ fun _ => rfl
  split
  · exact hother _ _ fun _ => rfl
  split
  · exact hother _ _ fun _ => rfl
  split
  · exact hother _ _ fun _ => rfl
  split
  · exact ((yields_filters doc pair.2).once _).bind fun found hfound => .pure hfound
  · exact .pure h

theorem ascending_of_ofDocument? {doc : Yaml.Document} {config : Config}
    (h : ofDocument? doc = some config) : Ascending config.kinds := by
  have hfields : Yields (do
      let fields ← (← pairs doc doc.root).foldlM (Fields.add doc) {}
      return fields.config) fun config => Ascending config.kinds := by
    refine (Yields.trivial _).bind fun pairs _ => ?_
    refine (Yields.foldlM (yields_add doc) pairs (by simp)).bind fun fields hfields => .pure ?_
    cases hk : fields.kinds
    case none => simp [Fields.config, hk, Ascending]
    case some kinds => simpa [Fields.config, hk] using hfields kinds hk
  obtain ⟨⟨_, count⟩, hrun, rfl⟩ := Option.map_eq_some_iff.mp h
  exact hfields 0 _ count hrun

theorem ascending_of_ofYaml? {s : List Char} {config : Config} (h : ofYaml? s = some config) :
    Ascending config.kinds := by
  obtain ⟨doc?, _, h⟩ := Option.bind_eq_some_iff.mp h
  cases doc?
  case none =>
    cases h
    exact .nil
  case some doc => exact ascending_of_ofDocument? h

-- What reading checks: the keys are distinct and known, and the patterns can be read.
structure Accepted (config : Config) : Prop where
  ascending : Ascending config.kinds
  known     : ∀ key ∈ config.kinds.map (·.1), ∃ kind : Kind, kind.key = key
  patterns  : ∃ excluded, readGlobs config.excludedPaths = .ok excluded

theorem unknownKey?_eq_none_iff {config : Config} :
    config.unknownKey? = none ↔ ∀ key ∈ config.kinds.map (·.1), ∃ kind : Kind, kind.key = key := by
  simp only [unknownKey?, List.find?_eq_none, Option.isNone_iff_eq_none, ← Option.ne_none_iff_exists',
    ← Kind.ofKey?_eq_some_iff]

theorem validated_eq_ok_iff {config config' : Config} :
    config.validated = .ok config' ↔ config = config' ∧
      (∀ key ∈ config.kinds.map (·.1), ∃ kind : Kind, kind.key = key) ∧
      ∃ excluded, readGlobs config.excludedPaths = .ok excluded := by
  rw [← unknownKey?_eq_none_iff, validated]
  cases config.unknownKey?
  case some key => simp
  case none => cases readGlobs config.excludedPaths <;> simp [Except.mapError, Except.map]

theorem accepted_of_ofText {s : List Char} {config : Config} (h : ofText s = .ok config) :
    config.Accepted := by
  rw [ofText] at h
  split at h
  case isTrue =>
    cases h
    exact ⟨.nil, by simp, [], rfl⟩
  case isFalse =>
    split at h
    case h_1 config' hy =>
      obtain ⟨rfl, hknown, hpatterns⟩ := validated_eq_ok_iff.mp h
      exact ⟨ascending_of_ofYaml? hy, hknown, hpatterns⟩
    case h_2 => cases h

-- The allow-list with one more filter, if its key is known.
def addFilter (allow : Allowlist) (pair : String × KindFilter) : Allowlist :=
  match Kind.ofKey? pair.1 with
  | some kind => allow.withFilter kind pair.2
  | none => allow

theorem allowlist_eq_foldl (config : Config) : config.allowlist =
    config.kinds.foldl addFilter (.ofMarkers config.placeholderMarkers config.ignoredNames) := rfl

theorem filter?_addFilter (allow : Allowlist) (pair : String × KindFilter) (kind : Kind) :
    (addFilter allow pair).filter? kind = if kind.key = pair.1 then some pair.2 else allow.filter? kind := by
  unfold addFilter
  split
  case h_1 other ho =>
    have hkey : kind = other ↔ kind.key = pair.1 := by
      rw [← Kind.ofKey?_eq_some_iff, ho, Option.some_inj, eq_comm]
    simp only [Allowlist.filter?_withFilter, hkey]
  case h_2 hn =>
    have hkey : ¬kind.key = pair.1 := fun h => by simp [Kind.ofKey?_eq_some_iff.mpr h] at hn
    rw [if_neg hkey]

-- Filters leave the markers and names alone.
theorem foldl_addFilter_markers_names (kinds : List (String × KindFilter)) (allow : Allowlist) :
    (kinds.foldl addFilter allow).markers = allow.markers ∧
      (kinds.foldl addFilter allow).names = allow.names := by
  induction kinds generalizing allow
  case nil => exact ⟨rfl, rfl⟩
  case cons first rest ih =>
    have hone : (addFilter allow first).markers = allow.markers ∧ (addFilter allow first).names = allow.names := by
      unfold addFilter
      split <;> exact ⟨rfl, rfl⟩
    rw [List.foldl_cons, ← hone.1, ← hone.2]
    exact ih _

theorem filter?_foldl_addFilter {kinds : List (String × KindFilter)} (h : Ascending kinds)
    (allow : Allowlist) (kind : Kind) (filter : KindFilter) :
    (kinds.foldl addFilter allow).filter? kind = some filter ↔
      (kind.key, filter) ∈ kinds ∨ (kind.key ∉ kinds.map (·.1) ∧ allow.filter? kind = some filter) := by
  induction kinds generalizing allow
  case nil => simp
  case cons first rest ih =>
    have ⟨hfirst, hrest⟩ := List.pairwise_cons.mp h
    rw [List.foldl_cons, ih hrest, filter?_addFilter]
    by_cases hk : kind.key = first.1
    case pos =>
      have hn : kind.key ∉ rest.map (·.1) := by
        rw [hk, List.mem_map]
        exact fun ⟨pair, hp, he⟩ => (hfirst pair hp).ne he.symm
      have hpair : (kind.key, filter) = first ↔ some first.2 = some filter := by
        rw [Option.some_inj]
        exact ⟨fun h => h ▸ rfl, fun h => Prod.ext hk h.symm⟩
      have hnone : (kind.key, filter) ∉ rest := fun hm => hn (List.mem_map_of_mem hm)
      have hlisted : kind.key ∈ (first :: rest).map (·.1) := hk ▸ List.mem_map_of_mem List.mem_cons_self
      rw [if_pos hk, List.mem_cons, hpair]
      simp only [hn, hnone, hlisted, not_true, not_false_eq_true, true_and, false_and, false_or, or_false]
    case neg =>
      have hpair : (kind.key, filter) ≠ first := fun h => hk (h ▸ rfl)
      simp [hk, hpair]

theorem filter?_allowlist_eq_some_iff {config : Config} (h : Ascending config.kinds) {kind : Kind}
    {filter : KindFilter} :
    config.allowlist.filter? kind = some filter ↔ (kind.key, filter) ∈ config.kinds := by
  rw [allowlist_eq_foldl, filter?_foldl_addFilter h]
  simp [Allowlist.ofMarkers, Allowlist.filter?]

-- A fragment of a filter that hides a name in a category.
def Hides (filter : KindFilter) (name : String) (category : Category) : Prop :=
  (∃ fragment ∈ filter.ignore, fragment.toList <:+: name.toList) ∨
  (category ∈ [.clearedNotSet, .missingDefinition] ∧
    ∃ fragment ∈ filter.ignoreUnset, fragment.toList <:+: name.toList) ∨
  (category = .unusedDefinition ∧ ∃ fragment ∈ filter.ignoreUnused, fragment.toList <:+: name.toList)

theorem hides_iff {filter : KindFilter} {name : String} {category : Category} :
    Hides filter name category ↔
      (holdsAny name filter.ignore || holdsAny name (filter.forCategory category)) = true := by
  simp only [Hides, Bool.or_eq_true, holdsAny_iff]
  cases category <;> simp [KindFilter.forCategory]

namespace Accepted

variable {config : Config}

theorem isIgnored_iff (h : config.Accepted) (kind : Kind) (name : String) (category : Category) :
    config.allowlist.isIgnored kind name category = true ↔
      (∃ marker ∈ config.placeholderMarkers, marker ≠ "" ∧ marker.toList <:+: name.toList) ∨
      name ∈ config.ignoredNames ∨
      ∃ filter, (kind.key, filter) ∈ config.kinds ∧ Hides filter name category := by
  have hmarkers : config.allowlist.isPlaceholder name = true ↔
      ∃ marker ∈ config.placeholderMarkers, marker ≠ "" ∧ marker.toList <:+: name.toList := by
    rw [Allowlist.isPlaceholder, allowlist_eq_foldl, (foldl_addFilter_markers_names _ _).1, holdsAny_iff]
    simp [Allowlist.ofMarkers, and_assoc]
  have hnames : config.allowlist.names = config.ignoredNames := by
    rw [allowlist_eq_foldl, (foldl_addFilter_markers_names _ _).2, Allowlist.ofMarkers]
  have hfilter : (∃ filter, (kind.key, filter) ∈ config.kinds ∧ Hides filter name category) ↔
      ∃ filter, config.allowlist.filter? kind = some filter ∧ Hides filter name category := by
    simp only [filter?_allowlist_eq_some_iff h.ascending]
  rw [Allowlist.isIgnored, hfilter, Bool.or_eq_true, Bool.or_eq_true, hmarkers, hnames, or_assoc]
  cases config.allowlist.filter? kind <;> simp [hides_iff]

theorem selection_eq (h : config.Accepted) (extensions : List String) :
    ∃ excluded, readGlobs config.excludedPaths = .ok excluded ∧
      config.selection extensions = .ok ⟨extensions, config.ignoredDirs, excluded⟩ := by
  have ⟨excluded, he⟩ := h.patterns
  exact ⟨excluded, he, by simp [selection, he, Except.mapError, Except.map]⟩

end Accepted

end Config

theorem Selection.eq_of_stagedFiles_error {selection : Selection} {tree : FileTree}
    {repo? : Option Repository} {root : Path} {failure : Failure}
    (h : selection.stagedFiles tree repo? root = .error failure) :
    failure = .nothingStaged ∨ ∃ fault, failure = .repository fault := by
  rw [stagedFiles] at h
  cases hd : Repository.discover tree repo? root
  case error fault =>
    rw [hd] at h
    cases h
    exact .inr ⟨fault, rfl⟩
  case ok repo =>
    rw [hd] at h
    cases hs : repo.staged tree
    case error fault =>
      simp only [Except.mapError, hs, bind, Except.bind] at h
      cases h
      exact .inr ⟨fault, rfl⟩
    case ok staged =>
      simp only [Except.mapError, hs, bind, Except.bind] at h
      split at h
      · cases h
        exact .inl rfl
      · cases h

-- Files can be missing, but the configuration is not to blame.
theorem Config.Accepted.validate_ne_config {config : Config} (h : config.Accepted) (checker : Checker)
    (tree : FileTree) (repo? : Option Repository) (root : Path) (staged : Bool) (file? : Option Path)
    (fault : ConfigFault) :
    validate checker config tree repo? root staged ≠ .error (.config file? fault) := by
  have ⟨excluded, _, hs⟩ := h.selection_eq checker.extensions
  intro hv
  simp only [validate, hs, Except.mapError, bind, Except.bind] at hv
  split at hv
  case h_1 failure hf =>
    cases hv
    rw [Selection.files] at hf
    split at hf
    · obtain he | ⟨_, he⟩ := Selection.eq_of_stagedFiles_error hf <;> cases he
    · cases hf
  case h_2 => cases hv

theorem accepted_config_honoured {s : List Char} {config : Config} (h : Config.ofText s = .ok config) :
    (∀ extensions, ∃ excluded, readGlobs config.excludedPaths = .ok excluded ∧
      config.selection extensions = .ok ⟨extensions, config.ignoredDirs, excluded⟩) ∧
    (∀ checker tree repo? root staged file? fault,
      validate checker config tree repo? root staged ≠ .error (.config file? fault)) ∧
    (∀ kind name category, config.allowlist.isIgnored kind name category = true ↔
      (∃ marker ∈ config.placeholderMarkers, marker ≠ "" ∧ marker.toList <:+: name.toList) ∨
      name ∈ config.ignoredNames ∨
      ∃ filter, (kind.key, filter) ∈ config.kinds ∧ Config.Hides filter name category) ∧
    (config.kinds.map (·.1)).Nodup ∧
    (∀ key ∈ config.kinds.map (·.1), ∃ kind : Kind, kind.key = key) := by
  have ha := Config.accepted_of_ofText h
  exact ⟨ha.selection_eq, ha.validate_ne_config, ha.isIgnored_iff, ha.ascending.nodup_keys, ha.known⟩

-- A configuration in which the keys are not in order and one of them stands twice.
def tunedText : String :=
  "excluded_paths: ['history/**']\nkinds:\n  state_flag:\n    ignore: [old]\n  country_flag:\n" ++
    "    ignore_unused: [ai_]\n  state_flag:\n    ignore_unset: [tmp_]\n"

def tunedConfig : Config where
  excludedPaths := ["history/**"]
  kinds := [("country_flag", { ignoreUnused := ["ai_"] }), ("state_flag", { ignoreUnset := ["tmp_"] })]

theorem accepted_config_honoured_tunedText :
    Config.ofText tunedText.toList = .ok tunedConfig ∧
      (∃ selection, tunedConfig.selection ["txt"] = .ok selection) ∧
      tunedConfig.allowlist.isIgnored .stateFlag "tmp_war" .missingDefinition = true := by
  have hread : Config.ofText tunedText.toList = .ok tunedConfig := by decide +kernel
  have ⟨hselection, _, hignored, _⟩ := accepted_config_honoured hread
  have ⟨_, _, hs⟩ := hselection ["txt"]
  refine ⟨hread, ⟨_, hs⟩, (hignored _ _ _).mpr <| .inr <| .inr ?_⟩
  refine ⟨{ ignoreUnset := ["tmp_"] }, by simp [tunedConfig, Kind.key], .inr <| .inl ?_⟩
  exact ⟨by decide, "tmp_", by simp, [], "war".toList, by decide⟩

end CrossRef
