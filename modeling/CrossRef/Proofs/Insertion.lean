import CrossRef.Proofs.Audit
import Mathlib.Data.List.Forall2

namespace CrossRef

open Text

-- The second list has all files of the first one, and at any places more of which `P` holds.
inductive Inserts (P : Path → Prop) : List Path → List Path → Prop
  | nil : Inserts P [] []
  | keep (p : Path) {files files' : List Path} :
    Inserts P files files' → Inserts P (p :: files) (p :: files')
  | insert (p : Path) {files files' : List Path} :
    P p → Inserts P files files' → Inserts P files (p :: files')

-- The label of a file ends in a dot and the extension.
def HasExtension (root : Path) (ext : String) (p : Path) : Prop :=
  '.' :: ext.toList <:+ (Path.label root p).toList

theorem ofPath?_of_hasExtension {root p : Path} {ext : String} (hd : '.' ∉ ext.toList)
    (h : HasExtension root ext p) :
    FileClass.ofPath? (Path.label root p) = FileClass.ofExtension? ext := by
  obtain ⟨stem, hs⟩ := h
  rw [FileClass.ofPath?, ← hs, afterLast?_append_cons stem hd, Option.bind_some, String.ofList_toList]

section Sites

variable {os : List Occurrence} {kind : Kind} {name : String} {action : Action}

theorem sitesIn_eq_nil_of_forall (h : ∀ o ∈ os, o.kind = kind → o.action ≠ action) :
    sitesIn os kind name action = [] :=
  sitesIn_eq_nil_iff.mpr fun ⟨o, ho, hk, _, ha⟩ => h o ho hk ha

end Sites

section Runs

variable {checker : Checker} {allow : Allowlist} {tree : FileTree} {root : Path}

-- What is found in a file is what a rule for files of its class looks for.
theorem exists_rule_of_mem_occurrencesIn {p : Path} {cls : FileClass} {o : Occurrence}
    (hc : FileClass.ofPath? (Path.label root p) = some cls)
    (h : o ∈ checker.occurrencesIn allow tree root [p]) :
    ∃ rule ∈ checker.rules, rule.scope.cls = cls ∧ rule.kind = o.kind ∧ rule.action = o.action := by
  have ⟨q, hq, _, _, h⟩ := exists_mem_extract_of_mem_occurrencesIn h
  rw [List.mem_singleton.mp hq] at h
  have ⟨cls', hc', rule, hr, ho⟩ := exists_applicable_of_mem_extract h
  obtain rfl : cls' = cls := by simpa [hc'] using hc
  have ⟨hr, happ⟩ := List.mem_filter.mp hr
  simp only [Scope.applies, Bool.and_eq_true, beq_iff_eq] at happ
  exact ⟨rule, hr, happ.1, ho⟩

namespace Inserts

variable {P : Path → Prop} {files files' : List Path} {kind : Kind} {action : Action}

-- The places of an action stay the same if it is not in the files that are inserted.
theorem sitesIn_eq (h : Inserts P files files') (name : String)
    (hP : ∀ p, P p → ∀ o ∈ checker.occurrencesIn allow tree root [p], o.kind = kind → o.action ≠ action) :
    sitesIn (checker.occurrencesIn allow tree root files') kind name action =
      sitesIn (checker.occurrencesIn allow tree root files) kind name action := by
  induction h
  case nil => rfl
  case keep p files files' _ ih =>
    rw [occurrencesIn_cons p files, occurrencesIn_cons p files', sitesIn_append, sitesIn_append, ih]
  case insert p files files' hp _ ih =>
    rw [occurrencesIn_cons p files', sitesIn_append, sitesIn_eq_nil_of_forall (hP p hp), List.nil_append, ih]

theorem subset (h : Inserts P files files') : files ⊆ files' := by
  induction h
  case nil => exact List.Subset.refl _
  case keep p _ _ _ ih => exact List.cons_subset_cons p ih
  case insert p _ _ _ _ ih => exact List.subset_cons_of_subset p ih

theorem occurs (h : Inserts P files files') {name : String}
    (ho : Occurs (checker.occurrencesIn allow tree root files) kind name action) :
    Occurs (checker.occurrencesIn allow tree root files') kind name action := by
  have ⟨o, hm, hk⟩ := ho
  have ⟨p, hp, hm⟩ := List.mem_flatMap.mp hm
  exact ⟨o, List.mem_flatMap.mpr ⟨p, h.subset hp, hm⟩, hk⟩

-- Files without the action that a category is about can only end defects.
theorem inCategory_sublist (h : Inserts P files files') (category : Category)
    (hP : ∀ p, P p → ∀ o ∈ checker.occurrencesIn allow tree root [p],
      o.kind = kind → o.action ≠ category.present) :
    ((checker.defectsOf allow tree root files' kind).inCategory category).Sublist
      ((checker.defectsOf allow tree root files kind).inCategory category) :=
  (isGapList_inCategory_defectsOf ..).sublist (isGapList_inCategory_defectsOf ..)
    (fun name => h.sitesIn_eq name hP) fun _ _ _ => h.occurs

-- Files with none of the actions that a category is about do not matter for it.
theorem inCategory_eq (h : Inserts P files files') (category : Category)
    (hP : ∀ p, P p → ∀ o ∈ checker.occurrencesIn allow tree root [p],
      o.kind = kind → o.action ∉ category.present :: category.absent) :
    (checker.defectsOf allow tree root files' kind).inCategory category =
      (checker.defectsOf allow tree root files kind).inCategory category := by
  have hsites {action : Action} (ha : action ∈ category.present :: category.absent) (name : String) :=
    @sitesIn_eq checker allow tree root _ _ _ kind action h name
      fun p hp o ho hk he => hP p hp o ho hk (he ▸ ha)
  refine List.Sublist.antisymm ?less ?more
  case less => exact h.inCategory_sublist category fun p hp o ho hk he => hP p hp o ho hk (by simp [he])
  case more =>
    refine (isGapList_inCategory_defectsOf ..).sublist (isGapList_inCategory_defectsOf ..)
      (fun name => (hsites (by simp) name).symm) ?_
    intro name action ha ho
    rwa [← sitesIn_ne_nil_iff, ← hsites (List.mem_cons_of_mem _ ha), sitesIn_ne_nil_iff]

end Inserts

theorem forall₂_audit_kinds {files files' : List Path} {R : KindDefects → KindDefects → Prop}
    (h : ∀ kind, R (checker.defectsOf allow tree root files kind)
      (checker.defectsOf allow tree root files' kind)) :
    List.Forall₂ R (audit checker allow tree root files).kinds
      (audit checker allow tree root files').kinds := by
  rw [audit_kinds_eq_map, audit_kinds_eq_map, List.forall₂_map_left_iff, List.forall₂_map_right_iff,
    List.forall₂_same]
  exact fun kind _ => h kind

variable {p : Path} {o : Occurrence}

-- Displayed texts mention event targets, and for flags they do not matter.
theorem mention_of_localisation (hp : HasExtension root "yml" p)
    (h : o ∈ Checker.flagsAndTargets.occurrencesIn allow tree root [p]) :
    o.kind = .eventTarget ∧ o.action = .mention := by
  have hrules : ∀ rule ∈ Rule.flagsAndTargets, rule.scope.cls = .localisation →
      rule.kind = .eventTarget ∧ rule.action = .mention := by decide
  have ⟨rule, hr, hcls, hk, ha⟩ :=
    exists_rule_of_mem_occurrencesIn (ofPath?_of_hasExtension (by decide) hp) h
  exact hk ▸ ha ▸ hrules rule hr hcls

-- Scripted localisations are defined in script,
theorem set_of_script (hp : HasExtension root "txt" p)
    (h : o ∈ Checker.scriptedLocalisation.occurrencesIn allow tree root [p]) : o.action = .set := by
  have hrules : ∀ rule ∈ Rule.scriptedLocalisations, rule.scope.cls = .script → rule.action = .set := by
    decide
  have ⟨rule, hr, hcls, _, ha⟩ :=
    exists_rule_of_mem_occurrencesIn (ofPath?_of_hasExtension (by decide) hp) h
  exact ha ▸ hrules rule hr hcls

-- and are used everywhere else.
theorem use_of_interface_or_localisation
    (hp : HasExtension root "gui" p ∨ HasExtension root "yml" p)
    (h : o ∈ Checker.scriptedLocalisation.occurrencesIn allow tree root [p]) : o.action = .use := by
  have hrules : ∀ rule ∈ Rule.scriptedLocalisations, rule.scope.cls ≠ .script → rule.action = .use := by
    decide
  obtain hp | hp := hp
  all_goals
    have ⟨rule, hr, hcls, _, ha⟩ :=
      exists_rule_of_mem_occurrencesIn (ofPath?_of_hasExtension (by decide) hp) h
    exact ha ▸ hrules rule hr (by simp [hcls])

end Runs

-- More files have one-sided effects. Displayed texts only show that event targets are used. More script
-- only defines scripted localisations, and all other files only use them.
theorem audit_inserts_one_sided (allow : Allowlist) (tree : FileTree) (root : Path) :
    (∀ files files', Inserts (HasExtension root "yml") files files' →
      List.Forall₂ (fun d d' => d'.kind = d.kind ∧ d'.cleared = d.cleared ∧ d'.missing = d.missing ∧
          d'.unused.Sublist d.unused ∧
          (d.kind ∈ [.countryFlag, .stateFlag, .globalFlag] → d'.unused = d.unused))
        (audit .flagsAndTargets allow tree root files).kinds
        (audit .flagsAndTargets allow tree root files').kinds) ∧
    (∀ files files', Inserts (HasExtension root "txt") files files' →
      List.Forall₂ (fun d d' => d'.kind = d.kind ∧ d'.missing.Sublist d.missing)
        (audit .scriptedLocalisation allow tree root files).kinds
        (audit .scriptedLocalisation allow tree root files').kinds) ∧
    ∀ files files', Inserts (fun p => HasExtension root "gui" p ∨ HasExtension root "yml" p) files files' →
      List.Forall₂ (fun d d' => d'.kind = d.kind ∧ d'.unused.Sublist d.unused)
        (audit .scriptedLocalisation allow tree root files).kinds
        (audit .scriptedLocalisation allow tree root files').kinds := by
  refine ⟨?displayed, ?script, ?others⟩
  case displayed =>
    refine fun files files' h => forall₂_audit_kinds fun kind => ?_
    -- A mention is neither asked for nor forbidden where a definition lacks.
    have hother (category : Category) (hm : .mention ∉ category.present :: category.absent) :
        (Checker.flagsAndTargets.defectsOf allow tree root files' kind).inCategory category =
          (Checker.flagsAndTargets.defectsOf allow tree root files kind).inCategory category :=
      h.inCategory_eq category fun p hp o ho _ => (mention_of_localisation hp ho).2 ▸ hm
    refine ⟨rfl, hother .clearedNotSet (by decide), hother .missingDefinition (by decide), ?sub, ?flags⟩
    case sub =>
      refine h.inCategory_sublist .unusedDefinition fun p hp o ho _ => ?_
      rw [(mention_of_localisation hp ho).2]
      decide
    case flags =>
      intro (hk : kind ∈ [.countryFlag, .stateFlag, .globalFlag])
      refine h.inCategory_eq .unusedDefinition fun p hp o ho he => ?_
      rw [← he, (mention_of_localisation hp ho).1] at hk
      exact absurd hk (by decide)
  case script =>
    refine fun files files' h => forall₂_audit_kinds fun kind => ⟨rfl, ?_⟩
    refine h.inCategory_sublist .missingDefinition fun p hp o ho _ => ?_
    rw [set_of_script hp ho]
    decide
  case others =>
    refine fun files files' h => forall₂_audit_kinds fun kind => ⟨rfl, ?_⟩
    refine h.inCategory_sublist .unusedDefinition fun p hp o ho _ => ?_
    rw [use_of_interface_or_localisation hp ho]
    decide

-- A mod in which the script saves an event target and defines a localisation, and the texts use both.
def targetTree : FileTree where
  top := .dir [
    ([0x73, 0x2e, 0x74, 0x78, 0x74],
      .file (Utf8.encode "save_event_target_as = t localization_key = n_scl")),
    ([0x6c, 0x2e, 0x79, 0x6d, 0x6c], .file (Utf8.encode "k: [t.GetName] [n_scl]"))]

def targetScript : Path := ⟨[0x2f, 0x73, 0x2e, 0x74, 0x78, 0x74]⟩

def targetTexts : Path := ⟨[0x2f, 0x6c, 0x2e, 0x79, 0x6d, 0x6c]⟩

def targetDefects (checker : Checker) (files : List Path) : List KindDefects :=
  (audit checker .empty targetTree ⟨[0x2f]⟩ files).kinds

theorem audit_inserts_targetTree :
    List.Forall₂ (fun d d' => d'.missing = d.missing ∧ d'.unused.Sublist d.unused)
      (targetDefects .flagsAndTargets [targetScript])
      (targetDefects .flagsAndTargets [targetTexts, targetScript]) ∧
    List.Forall₂ (fun d d' => d'.missing.Sublist d.missing)
      (targetDefects .scriptedLocalisation [targetTexts])
      (targetDefects .scriptedLocalisation [targetTexts, targetScript]) ∧
    List.Forall₂ (fun d d' => d'.unused.Sublist d.unused)
      (targetDefects .scriptedLocalisation [targetScript])
      (targetDefects .scriptedLocalisation [targetTexts, targetScript]) := by
  have hyml : HasExtension ⟨[0x2f]⟩ "yml" targetTexts := ⟨['l'], by decide +kernel⟩
  have htxt : HasExtension ⟨[0x2f]⟩ "txt" targetScript := ⟨['s'], by decide +kernel⟩
  have ⟨hdisplayed, hscript, hothers⟩ := audit_inserts_one_sided .empty targetTree ⟨[0x2f]⟩
  refine ⟨?_, ?_, ?_⟩
  · refine (hdisplayed _ _ (.insert _ hyml (.keep _ .nil))).imp ?_
    exact fun _ _ ⟨_, _, hm, hu, _⟩ => ⟨hm, hu⟩
  · exact (hscript _ _ (.keep _ (.insert _ htxt .nil))).imp fun _ _ h => h.2
  · exact (hothers _ _ (.insert _ (.inr hyml) (.keep _ .nil))).imp fun _ _ h => h.2

-- Both inclusions for the localisation are strict there.
example : (targetDefects .scriptedLocalisation [targetTexts]).map (·.missing.length) = [1] ∧
    (targetDefects .scriptedLocalisation [targetScript]).map (·.unused.length) = [1] ∧
    (targetDefects .scriptedLocalisation [targetTexts, targetScript]).map (·.issueCount) = [0] := by
  decide +kernel

end CrossRef
