import CrossRef.Command.Run
import CrossRef.Proofs.Alike
import CrossRef.Proofs.Render
import CrossRef.Proofs.Write

namespace CrossRef

open Text

section WriteReport

variable {tree written : FileTree} {p : Path} {text : String}

theorem FileTree.writeReport_of_ok (h : tree.write p (Utf8.encode text) = .ok written) :
    tree.writeReport (some p) text = .ok written := by
  rw [writeReport, h]
  rfl

theorem FileTree.writeReport_of_error {fault : Fault} (h : tree.write p (Utf8.encode text) = .error fault) :
    tree.writeReport (some p) text = .error ("failed to write report to " ++ p.toString) := by
  rw [writeReport, h]
  rfl

end WriteReport

-- The number of files can be read from a report, whatever follows it.
theorem Report.scanned_eq_of_render_append {a b : Report} {options : RenderOptions} (hc : options.color = false)
    (hk : a.checker = b.checker) {rest rest' : List Char}
    (h : (a.render options).toList ++ rest = (b.render options).toList ++ rest') : a.scanned = b.scanned := by
  have hsplit (report : Report) (rest : List Char) : (report.render options).toList ++ rest =
      unlines (lineText (ruleLine '#') :: ("MOD " ++ report.checker.title) :: lineText (ruleLine '#') ::
        optionTexts options) ++
      (report.filesText.toList ++ ['\n'] ++ (unlines report.bodyTexts.tail ++ rest)) := by
    simp [toList_render report hc, bodyTexts, unlines]
  rw [hsplit, hsplit, hk, List.append_cancel_left_eq] at h
  exact (filesText_inj (delimited_line (oneLine_filesText a) (oneLine_filesText b) h).1).1

namespace Session

variable {session : Session} {options : CheckOptions} {root : Path} {config : Config}

-- The files and the repository are as a system has them.
structure Sound (session : Session) : Prop where
  proper  : session.tree.top.Proper
  settled : ∀ repo ∈ session.repo?, repo.Settled session.tree

-- No path at or below the mod root leads to a report that is written before another checker runs, or into
-- the directory of one.
def ReportsOutOfReach (session : Session) (options : CheckOptions) : Prop :=
  ∀ root config, session.prepare options = .ok (root, config) →
    session.tree.OutOfReach
      (fun w => ∃ checker ∈ Checker.all.dropLast, session.tree.place? (session.reportPath checker) = some w)
      root

-- What a checker does if no other one runs before it.
def runAlone (session : Session) (options : CheckOptions) (root : Path) (config : Config)
    (checker : Checker) : CheckRun :=
  session.runChecker options root config checker (session.reportPath checker)

-- Whether a checker reports defects.
def findsIssues (session : Session) (options : CheckOptions) (root : Path) (config : Config)
    (checker : Checker) : Bool :=
  match validate checker config session.tree session.repo? root options.staged with
  | .ok report => report.hasIssues
  | .error _   => false

theorem exists_address_of_prepare (h : session.prepare options = .ok (root, config)) :
    ∃ a, root = Path.ofNames a ∧ session.tree.top.see? a = some .dir := by
  have hroot : modRoot session.tree options.path = .ok root := by
    unfold prepare at h
    split at h
    · simp at h
    · split at h
      · simp_all
      · simp at h
  unfold modRoot at hroot
  split_ifs at hroot with _ hdir
  have hisDir : session.tree.isDir options.path = true := by simpa using hdir
  have ⟨a, ha, hsee⟩ := FileTree.isDir_iff_place?.mp hisDir
  have haddress : session.tree.address options.path = .ok a :=
    FileTree.address_eq_ok_iff_place?.mpr ⟨ha, by simp [hsee]⟩
  rw [FileTree.canonical, haddress] at hroot
  exact ⟨a, (Except.ok.inj hroot).symm, hsee⟩

section Run

variable {checker : Checker} {output : Option Path} {report : Report}

theorem runChecker_of_write {written : FileTree}
    (hv : validate checker config session.tree session.repo? root options.staged = .ok report)
    (hw : session.tree.writeReport output
      (report.render (session.renderOptions options root output).plain) = .ok written) :
    session.runChecker options root config checker output =
      ⟨report.render (session.renderOptions options root output), written, .ok report.hasIssues⟩ := by
  simp [runChecker, hv, hw]

theorem runChecker_of_write_error {message : String}
    (hv : validate checker config session.tree session.repo? root options.staged = .ok report)
    (hw : session.tree.writeReport output
      (report.render (session.renderOptions options root output).plain) = .error message) :
    session.runChecker options root config checker output =
      ⟨report.render (session.renderOptions options root output), session.tree, .error message⟩ := by
  simp [runChecker, hv, hw]

theorem out_runChecker
    (h : validate checker config session.tree session.repo? root options.staged = .ok report) :
    (session.runChecker options root config checker output).out =
      report.render (session.renderOptions options root output) := by
  cases hw : session.tree.writeReport output
    (report.render (session.renderOptions options root output).plain)
  case error message => rw [runChecker_of_write_error h hw]
  case ok written    => rw [runChecker_of_write h hw]

theorem issues_runChecker {issues : Bool}
    (h : (session.runChecker options root config checker output).issues = .ok issues) :
    issues = session.findsIssues options root config checker := by
  unfold findsIssues
  cases hv : validate checker config session.tree session.repo? root options.staged
  case error failure => cases failure <;> simp_all [runChecker]
  case ok report =>
    cases hw : session.tree.writeReport output
      (report.render (session.renderOptions options root output).plain)
    case error message => simp [runChecker_of_write_error hv hw] at h
    case ok written    => simpa [runChecker_of_write hv hw, eq_comm] using h

end Run

-- Several checkers did what each of them does alone: they break off if one of them does, and otherwise they
-- print the same, with an empty line after each report, and find the same.
structure AsAlone (session : Session) (options : CheckOptions) (root : Path) (config : Config)
    (checkers : List Checker) (runs : CheckRuns) : Prop where
  broken : (∃ checker ∈ checkers, ∃ message,
    (session.runAlone options root config checker).issues = .error message) →
      ∃ message, runs.failed = .error message
  done : (∀ checker ∈ checkers, ∃ issues,
    (session.runAlone options root config checker).issues = .ok issues) →
      runs.failed = .ok (checkers.filter (session.findsIssues options root config)) ∧
      runs.out = String.join (checkers.map fun checker =>
        (session.runAlone options root config checker).out ++ "\n")

theorem asAlone_nil (tree : FileTree) :
    session.AsAlone options root config [] (session.runCheckers options root config [] tree) where
  broken := by simp
  done _ := ⟨rfl, rfl⟩

section Runs

variable {P : Address → Prop} {tree' : FileTree} {a : Address}
variable (hs : session.Sound) (ha : ∀ n ∈ a, Path.IsName n)
variable (hout : session.tree.OutOfReach P (Path.ofNames a))

include hs ha hout

-- After others have run, a checker does the same as alone, as long as they only wrote what is out of reach.
theorem runChecker_of_alike (h : FileTree.AlikeBut P session.tree tree') (hp' : tree'.top.Proper)
    (options : CheckOptions) (config : Config) (checker : Checker) :
    let run := { session with tree := tree' }.runChecker options (Path.ofNames a) config checker
      (session.reportPath checker)
    let alone := session.runAlone options (Path.ofNames a) config checker
    run.out = alone.out ∧ run.issues = alone.issues ∧ run.tree.top.Proper ∧
      ((∀ w, session.tree.place? (session.reportPath checker) = some w → P w) →
        FileTree.AlikeBut P session.tree run.tree) := by
  intro run alone
  have hsame := h.validate_eq hs.settled hs.proper hp' ha hout checker config options.staged
  cases hv : validate checker config session.tree session.repo? (Path.ofNames a) options.staged
  case error failure =>
    have hv' := hsame.trans hv
    cases failure <;> simp only [run, alone, runAlone, runChecker, hv, hv'] <;>
      exact ⟨trivial, trivial, hp', fun _ => h⟩
  case ok report =>
    have hv' := hsame.trans hv
    let shown := session.renderOptions options (Path.ofNames a) (session.reportPath checker)
    have hiff := @FileTree.AlikeBut.write_isOk_iff _ _ (session.reportPath checker)
      (Utf8.encode (report.render shown.plain)) _ h
    cases hw : session.tree.write (session.reportPath checker) (Utf8.encode (report.render shown.plain))
    case error fault =>
      cases hw' : tree'.write (session.reportPath checker) (Utf8.encode (report.render shown.plain))
      case ok written => simp [hw, hw'] at hiff
      case error fault' =>
        have hrun := @runChecker_of_write_error { session with tree := tree' } options _ config checker
          (some (session.reportPath checker)) report _ hv' (FileTree.writeReport_of_error hw')
        have halone := @runChecker_of_write_error session options _ config checker
          (some (session.reportPath checker)) report _ hv (FileTree.writeReport_of_error hw)
        simp only [run, alone, runAlone, hrun, halone]
        exact ⟨rfl, trivial, hp', fun _ => h⟩
    case ok written =>
      have ⟨written', hw'⟩ := hiff.mpr ⟨written, hw⟩
      have ⟨w, hplace, _, halike, hproper⟩ := FileTree.exists_alikeBut_of_write hw'
      have hrun := @runChecker_of_write { session with tree := tree' } options _ config checker
        (some (session.reportPath checker)) report _ hv' (FileTree.writeReport_of_ok hw')
      have halone := @runChecker_of_write session options _ config checker
        (some (session.reportPath checker)) report _ hv (FileTree.writeReport_of_ok hw)
      simp only [run, alone, runAlone, hrun, halone]
      refine ⟨rfl, trivial, hproper hp', fun hP => h.trans (halike.mono fun b hb => ?_)⟩
      exact hb ▸ hP w (h.place?_eq _ ▸ hplace)

theorem asAlone_runCheckers (h : FileTree.AlikeBut P session.tree tree') (hp' : tree'.top.Proper)
    (options : CheckOptions) (config : Config) {checkers : List Checker}
    (hP : ∀ checker ∈ checkers.dropLast, ∀ w,
      session.tree.place? (session.reportPath checker) = some w → P w) :
    session.AsAlone options (Path.ofNames a) config checkers
      (session.runCheckers options (Path.ofNames a) config checkers tree') := by
  induction checkers generalizing tree'
  case nil => exact asAlone_nil tree'
  case cons checker rest ih =>
    have ⟨hrunOut, hrunIssues, hproper, halike⟩ :=
      runChecker_of_alike hs ha hout h hp' options config checker
    rw [runCheckers, hrunOut, hrunIssues]
    cases hissues : (session.runAlone options (Path.ofNames a) config checker).issues
    case error message =>
      refine ⟨fun _ => ⟨message, rfl⟩, fun hall => ?_⟩
      have ⟨issues, hok⟩ := hall checker (List.mem_cons_self ..)
      simp [hissues] at hok
    case ok issues =>
      -- What the last checker wrote may be in reach, for nothing runs after it.
      have hlater : session.AsAlone options (Path.ofNames a) config rest
          (session.runCheckers options (Path.ofNames a) config rest
            ({ session with tree := tree' }.runChecker options (Path.ofNames a) config checker
              (session.reportPath checker)).tree) := by
        by_cases hr : rest = []
        · exact hr ▸ asAlone_nil _
        · rw [List.dropLast_cons_of_ne_nil hr, List.forall_mem_cons] at hP
          exact ih (halike hP.1) hproper hP.2
      have hfinds := issues_runChecker hissues
      refine ⟨fun ⟨other, hm, message, hother⟩ => ?_, fun hall => ?_⟩
      · obtain rfl | hm := List.mem_cons.mp hm
        · simp [hissues] at hother
        · have ⟨message, hfailed⟩ := hlater.broken ⟨other, hm, message, hother⟩
          exact ⟨message, by simp [hfailed, Except.map]⟩
      · have ⟨hfailed, hprinted⟩ := hlater.done fun other hm => hall other (List.mem_cons_of_mem _ hm)
        simp [hfailed, hprinted, Except.map, List.filter_cons, hfinds, String.join_cons]

end Runs

theorem asAlone_all (hs : session.Sound) (hout : session.ReportsOutOfReach options)
    (h : session.prepare options = .ok (root, config)) :
    session.AsAlone options root config Checker.all
      (session.runCheckers options root config Checker.all session.tree) := by
  have hreach := hout root config h
  obtain ⟨a, rfl, hdir⟩ := exists_address_of_prepare h
  have ha : ∀ n ∈ a, Path.IsName n := hs.proper.names a (by rw [← Node.isSome_see?, hdir]; rfl)
  exact asAlone_runCheckers hs ha hreach (.refl session.tree) hs.proper options config
    fun checker hm w hw => ⟨checker, hm, hw⟩

theorem checkExit_le_one (strict issues : Bool) : checkExit strict issues ≤ 1 := by
  cases strict <;> cases issues <;> decide

theorem check_of_prepare (h : session.prepare options = .ok (root, config)) (checker : Checker) :
    session.check checker options (session.reportPath checker) =
      { out := (session.runAlone options root config checker).out
        tree := (session.runAlone options root config checker).tree
        ending :=
          match (session.runAlone options root config checker).issues with
          | .ok issues     => .exit (checkExit options.strict issues)
          | .error message => .fatal message } := by
  rw [check, h]
  rfl

theorem exitCode_check_eq_two_iff (h : session.prepare options = .ok (root, config)) (checker : Checker) :
    (session.check checker options (session.reportPath checker)).ending.exitCode = 2 ↔
      ∃ message, (session.runAlone options root config checker).issues = .error message := by
  rw [check_of_prepare h]
  cases (session.runAlone options root config checker).issues
  case error message => simp [Ending.exitCode]
  case ok issues =>
    have hle := checkExit_le_one options.strict issues
    simp [Ending.exitCode]
    omega

theorem exists_issues_of_exitCode (h : session.prepare options = .ok (root, config)) {checker : Checker}
    (hc : (session.check checker options (session.reportPath checker)).ending.exitCode ≠ 2) :
    ∃ issues, (session.runAlone options root config checker).issues = .ok issues := by
  cases hi : (session.runAlone options root config checker).issues
  case error message => exact absurd ((exitCode_check_eq_two_iff h checker).mpr ⟨message, hi⟩) hc
  case ok issues     => exact ⟨issues, rfl⟩

theorem ending_check_of_ok (h : session.prepare options = .ok (root, config)) {checker : Checker}
    (hok : ∃ issues, (session.runAlone options root config checker).issues = .ok issues) :
    (session.check checker options (session.reportPath checker)).ending =
      .exit (checkExit options.strict (session.findsIssues options root config checker)) := by
  obtain ⟨issues, hok⟩ := hok
  rw [check_of_prepare h, hok, issues_runChecker hok]

theorem foldr_max_checkExit (strict : Bool) (finds : Checker → Bool) (checkers : List Checker) :
    (checkers.map fun checker => checkExit strict (finds checker)).foldr max 0 =
      checkExit strict !(checkers.filter finds).isEmpty := by
  induction checkers
  case nil => cases strict <;> rfl
  case cons checker rest ih =>
    rw [List.map_cons, List.foldr_cons, ih]
    cases hf : finds checker
    case false =>
      rw [List.filter_cons_of_neg (by simp [hf])]
      cases strict <;> simp [checkExit]
    case true =>
      rw [List.filter_cons_of_pos hf, List.isEmpty_cons]
      cases strict
      case false => simp [checkExit]
      case true  => exact Nat.max_eq_left (checkExit_le_one ..)

theorem exists_out_runCheckers (options : CheckOptions) (root : Path) (config : Config) (checker : Checker)
    (rest : List Checker) (tree : FileTree) :
    let run := { session with tree }.runChecker options root config checker (session.reportPath checker)
    ∃ more, (session.runCheckers options root config (checker :: rest) tree).out = run.out ++ more := by
  rw [runCheckers]
  split
  · exact ⟨"", (String.append_empty ..).symm⟩
  · exact ⟨_, String.append_assoc ..⟩

theorem exists_out_checkAll (h : session.prepare options = .ok (root, config)) : ∃ more,
    (session.checkAll options).out =
      (session.runCheckers options root config Checker.all session.tree).out ++ more := by
  rw [checkAll, h]
  dsimp only
  split
  · exact ⟨"", (String.append_empty ..).symm⟩
  · exact ⟨_, rfl⟩

-- Below the verdict stands where the reports of the failed checkers are, and of no other one.
theorem reportLines_eq (session : Session) (failed : List Checker) :
    session.reportLines failed =
      if failed = [] then []
      else [Report.plainLine "", Report.plainLine "Reports:"] ++ failed.map fun checker =>
        Report.plainLine ("  " ++ checker.name ++
          String.ofList (List.replicate (14 - checker.name.length) ' ') ++ " " ++
            (session.reportPath checker).toString) := by
  simp only [reportLines, padded, List.isEmpty_iff, String.append_assoc]

-- Running all checkers is running each of them alone, and a summary. What one of them writes is not read by
-- the next one, if it is out of reach.
theorem checkAll_eq_each_alone (session : Session) (options : CheckOptions) (hs : session.Sound)
    (hout : session.ReportsOutOfReach options) :
    let alone (checker : Checker) := session.check checker options (session.reportPath checker)
    let outcome := session.checkAll options
    ((∃ checker ∈ Checker.all, (alone checker).ending.exitCode = 2) → outcome.ending.exitCode = 2) ∧
    ((∀ checker ∈ Checker.all, (alone checker).ending.exitCode ≠ 2) →
      ∃ root config failed, session.prepare options = .ok (root, config) ∧
        failed = Checker.all.filter (session.findsIssues options root config) ∧
        outcome.ending =
          .exit ((Checker.all.map fun checker => (alone checker).ending.exitCode).foldr max 0) ∧
        outcome.out = String.join (Checker.all.map fun checker => (alone checker).out ++ "\n") ++
          showLines (session.color && !options.noColor)
            ([Report.ruleLine '=', Report.plainLine "SUMMARY", Report.ruleLine '=',
              if failed = [] then Report.styledLine .ok "✓ All validations passed"
              else Report.styledLine .error
                ("✗ Issues found by: " ++ String.intercalate ", " (failed.map (·.name)))] ++
              if failed = [] then []
              else [Report.plainLine "", Report.plainLine "Reports:"] ++ failed.map fun checker =>
                Report.plainLine ("  " ++ checker.name ++
                  String.ofList (List.replicate (14 - checker.name.length) ' ') ++ " " ++
                    (session.reportPath checker).toString)) ∧
        ∀ checker ∈ Checker.all,
          validate checker config session.tree session.repo? root options.staged = .error .nothingStaged →
            (alone checker).ending = .exit 0 ∧ checker ∉ failed) := by
  intro alone outcome
  cases hprepare : session.prepare options
  case error message =>
    have hcode (checker : Checker) : (alone checker).ending.exitCode = 2 := by
      simp only [alone, check, hprepare]
      rfl
    refine ⟨fun _ => ?_, fun h => absurd (hcode .flagsAndTargets) (h .flagsAndTargets (by decide))⟩
    simp only [outcome, checkAll, hprepare]
    rfl
  case ok prepared =>
    obtain ⟨root, config⟩ := prepared
    have hruns := asAlone_all hs hout hprepare
    refine ⟨?broken, ?done⟩
    case broken =>
      rintro ⟨checker, hm, hcode⟩
      have ⟨message, hfailed⟩ := hruns.broken
        ⟨checker, hm, (exitCode_check_eq_two_iff hprepare checker).mp hcode⟩
      simp only [outcome, checkAll, hprepare, hfailed]
      rfl
    case done =>
      intro hcodes
      have hok : ∀ checker ∈ Checker.all, ∃ issues,
          (session.runAlone options root config checker).issues = .ok issues :=
        fun checker hm => exists_issues_of_exitCode hprepare (hcodes checker hm)
      have ⟨hfailed, hprinted⟩ := hruns.done hok
      have hending {checker : Checker} (hm : checker ∈ Checker.all) :=
        ending_check_of_ok hprepare (hok checker hm)
      refine ⟨root, config, _, rfl, rfl, ?ending, ?out, ?staged⟩
      case ending =>
        have hcode : Checker.all.map (fun checker => (alone checker).ending.exitCode) =
            Checker.all.map fun checker => checkExit options.strict
              (session.findsIssues options root config checker) :=
          List.map_congr_left fun checker hm => congrArg Ending.exitCode (hending hm)
        rw [hcode, foldr_max_checkExit]
        simp only [outcome, checkAll, hprepare, hfailed]
      case out =>
        have hsame (checker : Checker) :
            (alone checker).out = (session.runAlone options root config checker).out := by
          simp only [alone, check_of_prepare hprepare]
        simp only [outcome, checkAll, hprepare, hfailed, hprinted, hsame, summary, verdictLine,
          List.isEmpty_iff, reportLines_eq]
      case staged =>
        intro checker hm hv
        have hfinds : session.findsIssues options root config checker = false := by rw [findsIssues, hv]
        refine ⟨(hending hm).trans ?_, by simp [hfinds]⟩
        rw [hfinds, checkExit, Bool.and_false]
        rfl

-- A mod with a flag that is used and never set, and a directory for reports next to it.
def flaggedSession : Session where
  tree := { top := .dir [
    ([0x6d], .dir [([0x61, 0x2e, 0x74, 0x78, 0x74], .file (Utf8.encode "has_state_flag = x"))]),
    ([0x74], .dir [])] }
  tempDir := ⟨[0x2f, 0x74]⟩

def strictOptions : CheckOptions where
  path := ⟨[0x2f, 0x6d]⟩
  strict := true

theorem flaggedSession_sound : flaggedSession.Sound where
  proper := (FileTree.WellFormed.of_addresses (by decide)).proper
  settled := by simp [flaggedSession]

theorem prepare_flaggedSession : flaggedSession.prepare strictOptions = .ok (⟨[0x2f, 0x6d]⟩, {}) := by
  decide +kernel

theorem flaggedSession_reportsOutOfReach : flaggedSession.ReportsOutOfReach strictOptions := by
  intro root config h
  obtain ⟨rfl, rfl⟩ := Prod.mk.inj (Except.ok.inj (prepare_flaggedSession.symm.trans h))
  have hplace : ∀ checker ∈ Checker.all.dropLast,
      (flaggedSession.tree.place? (flaggedSession.reportPath checker)).map (·.head?) = some (some [0x74]) := by
    decide +kernel
  refine @FileTree.outOfReach_of_no_links _ _ [[0x6d]] flaggedSession_sound.proper rfl ?links ?below
  case links => exact fun below => Node.ne_link_of_addresses (by decide) _
  case below =>
    rintro below ⟨checker, hm, hw⟩
    simpa [hw] using hplace checker hm

theorem checkAll_eq_each_alone_flaggedSession :
    let alone (checker : Checker) :=
      flaggedSession.check checker strictOptions (flaggedSession.reportPath checker)
    let outcome := flaggedSession.checkAll strictOptions
    let rule := String.ofList (List.replicate 80 '=') ++ "\n"
    (alone .flagsAndTargets).ending = .exit 1 ∧ (alone .scriptedLocalisation).ending = .exit 0 ∧
      outcome.ending = .exit 1 ∧
      outcome.out =
        String.join [(alone .flagsAndTargets).out ++ "\n", (alone .scriptedLocalisation).out ++ "\n"] ++
          String.join [rule, "SUMMARY\n", rule, "✗ Issues found by: variables\n", "\n", "Reports:\n",
            "  variables      /t/modcheck-variables.txt\n"] := by
  intro alone outcome rule
  have hfirst : (alone .flagsAndTargets).ending = .exit 1 := by decide +kernel
  have hsecond : (alone .scriptedLocalisation).ending = .exit 0 := by decide +kernel
  have hcodes : Checker.all.map (fun checker => (alone checker).ending.exitCode) = [1, 0] := by
    simp [Checker.all, hfirst, hsecond, Ending.exitCode]
  have ⟨_, hdone⟩ := checkAll_eq_each_alone flaggedSession strictOptions flaggedSession_sound
    flaggedSession_reportsOutOfReach
  obtain ⟨root, config, failed, hp, rfl, hending, hprinted, _⟩ := hdone (by
    simp [Checker.all, alone, hfirst, hsecond, Ending.exitCode])
  obtain ⟨rfl, rfl⟩ := Prod.mk.inj (Except.ok.inj (prepare_flaggedSession.symm.trans hp))
  refine ⟨hfirst, hsecond, hending.trans (by rw [hcodes]; rfl), hprinted.trans ?_⟩
  have hfailed : Checker.all.filter (flaggedSession.findsIssues strictOptions ⟨[0x2f, 0x6d]⟩ {}) =
    [.flagsAndTargets] := by decide +kernel
  rw [hfailed]
  exact congrArg _ (by decide +kernel)

-- A mod with a link to the directory for reports, which is next to it.
def linkedSession : Session where
  tree := { top := .dir [([0x6d], .dir [([0x6c], .link ⟨[0x2f, 0x74]⟩)]), ([0x74], .dir [])] }
  tempDir := ⟨[0x2f, 0x74]⟩

def reportName (checker : Checker) : FileName := Utf8.encode ("modcheck-" ++ checker.name ++ ".txt")

-- The first report, as it is found through the link.
def linkedReport : Path := Path.descend ⟨[0x2f, 0x6d]⟩ [[0x6c], reportName .flagsAndTargets]

def plainSelection (checker : Checker) : Selection where
  extensions := checker.extensions
  ignoredDirs := ({} : Config).ignoredDirs
  excluded := []

theorem linkedSession_sound : linkedSession.Sound where
  proper := (FileTree.WellFormed.of_addresses (by decide)).proper
  settled := by simp [linkedSession]

theorem place?_linkedSession (checker : Checker) :
    linkedSession.tree.place? (linkedSession.reportPath checker) = some [[0x74], reportName checker] ∧
      linkedSession.tree.top.see? [[0x74], reportName checker] ≠ some .dir ∧
      (linkedSession.reportPath checker).bytes.getLast? ≠ some Path.slash := by
  cases checker <;> decide +kernel

theorem walk_linkedSession (checker : Checker) :
    (plainSelection checker).walk linkedSession.tree ⟨[0x2f, 0x6d]⟩ = [] ∧
      (plainSelection checker).accepts (Path.label ⟨[0x2f, 0x6d]⟩ linkedReport) = true := by
  cases checker <;> decide +kernel

theorem exists_write_linkedSession (checker : Checker) (content : List UInt8) :
    ∃ tree', linkedSession.tree.write (linkedSession.reportPath checker) content = .ok tree' :=
  have ⟨hplace, hdir, hslash⟩ := place?_linkedSession checker
  ⟨_, FileTree.write_eq_ok_iff.mpr ⟨hslash, _, hplace, hdir, rfl⟩⟩

section Linked

variable {content : List UInt8} {tree' : FileTree}
variable (h : linkedSession.tree.write (linkedSession.reportPath .flagsAndTargets) content = .ok tree')

include h

theorem alikeBut_of_write_linkedSession :
    FileTree.AlikeBut (· = [[0x74], reportName .flagsAndTargets]) linkedSession.tree tree' ∧
      tree'.top.see? [[0x74], reportName .flagsAndTargets] = some (.file content) ∧ tree'.top.Proper := by
  have ⟨w, hw, hfile, halike, hproper⟩ := FileTree.exists_alikeBut_of_write h
  obtain rfl := Option.some.inj ((place?_linkedSession .flagsAndTargets).1.symm.trans hw)
  exact ⟨halike, hfile, hproper linkedSession_sound.proper⟩

theorem linkedReport_mem_walk (checker : Checker) :
    linkedReport ∈ (plainSelection checker).walk tree' ⟨[0x2f, 0x6d]⟩ := by
  have ⟨halike, hfile, hproper⟩ := alikeBut_of_write_linkedSession h
  have hsee {a : Address} (ha : a ≠ [[0x74], reportName .flagsAndTargets]) := halike.see?_eq ha
  have haddress {p : Path} {a : Address} (ha : linkedSession.tree.place? p = some a)
      (hs : tree'.top.see? a = some .dir) : tree'.address p = .ok a :=
    FileTree.address_eq_ok_iff_place?.mpr ⟨halike.place?_eq p ▸ ha, by simp [hs]⟩
  have hroot : tree'.top.see? [[0x6d]] = some .dir := hsee (by decide)
  have htemp : tree'.top.see? [[0x74]] = some .dir := hsee (by decide)
  have hlink : tree'.top.see? [[0x6d], [0x6c]] = some (.link ⟨[0x2f, 0x74]⟩) := hsee (by decide)
  have hleads : tree'.Leads ⟨⟨[0x2f, 0x6d]⟩, [[0x6d]], [[[0x6d]]]⟩
      [[0x6c], reportName .flagsAndTargets] :=
    .linkToDir hlink (haddress rfl htemp) htemp (by decide) (.file hfile)
  refine List.mem_filter.mpr ⟨(FileTree.mem_files_iff_finds hproper).mpr ?found, ?accepted⟩
  case found =>
    have henter : ∀ n ∈ [[0x6c]], (plainSelection checker).enters n = true := by cases checker <;> decide
    exact ⟨_, haddress rfl hroot, .inr ⟨hroot, _, hleads, henter, rfl⟩⟩
  case accepted => exact (walk_linkedSession checker).2

theorem read_linkedReport : tree'.read linkedReport = .ok content := by
  have ⟨halike, hfile, _⟩ := alikeBut_of_write_linkedSession h
  have hplace : linkedSession.tree.place? linkedReport = some [[0x74], reportName .flagsAndTargets] := by
    decide +kernel
  exact FileTree.read_eq_ok_iff_place?.mpr ⟨_, halike.place?_eq _ ▸ hplace, hfile, by simp [halike.locked, linkedSession]⟩

end Linked

-- The report of a checker that runs alone. It reads nothing.
def aloneReport (checker : Checker) : Report :=
  audit checker ({} : Config).allowlist linkedSession.tree ⟨[0x2f, 0x6d]⟩ []

def linkedShown (checker : Checker) : RenderOptions :=
  linkedSession.renderOptions strictOptions ⟨[0x2f, 0x6d]⟩ (linkedSession.reportPath checker)

theorem prepare_linkedSession : linkedSession.prepare strictOptions = .ok (⟨[0x2f, 0x6d]⟩, {}) := by
  decide +kernel

theorem validate_linkedSession (checker : Checker) :
    validate checker {} linkedSession.tree none ⟨[0x2f, 0x6d]⟩ false = .ok (aloneReport checker) :=
  validate_eq_ok_iff.mpr
    ⟨plainSelection checker, [], rfl, congrArg Except.ok (walk_linkedSession checker).1, rfl⟩

theorem out_check_linkedSession (checker : Checker) :
    (linkedSession.check checker strictOptions (linkedSession.reportPath checker)).out =
      (aloneReport checker).render (linkedShown checker) := by
  rw [check_of_prepare prepare_linkedSession]
  exact out_runChecker (validate_linkedSession checker)

theorem exitCode_check_linkedSession (checker : Checker) :
    (linkedSession.check checker strictOptions (linkedSession.reportPath checker)).ending.exitCode ≠ 2 := by
  have ⟨tree', hw⟩ := exists_write_linkedSession checker
    (Utf8.encode ((aloneReport checker).render (linkedShown checker).plain))
  have hrun := runChecker_of_write (validate_linkedSession checker) (FileTree.writeReport_of_ok hw)
  rw [Ne, exitCode_check_eq_two_iff prepare_linkedSession, runAlone, hrun]
  simp

-- The second checker reads the report of the first one.
theorem exists_out_checkAll_linkedSession : ∃ (report : Report) (rest : String),
    report.checker = .scriptedLocalisation ∧ 0 < report.scanned ∧
      (linkedSession.checkAll strictOptions).out =
        (aloneReport .flagsAndTargets).render (linkedShown .flagsAndTargets) ++ "\n" ++
          (report.render (linkedShown .scriptedLocalisation) ++ rest) := by
  obtain ⟨tree', hw⟩ := exists_write_linkedSession .flagsAndTargets
    (Utf8.encode ((aloneReport .flagsAndTargets).render (linkedShown .flagsAndTargets).plain))
  have hfirst := runChecker_of_write (validate_linkedSession .flagsAndTargets) (FileTree.writeReport_of_ok hw)
  let report := audit .scriptedLocalisation ({} : Config).allowlist tree' ⟨[0x2f, 0x6d]⟩
    ((plainSelection .scriptedLocalisation).walk tree' ⟨[0x2f, 0x6d]⟩)
  have hsecond := @out_runChecker { linkedSession with tree := tree' } strictOptions ⟨[0x2f, 0x6d]⟩ {}
    .scriptedLocalisation (linkedSession.reportPath .scriptedLocalisation) report
    (validate_eq_ok_iff.mpr ⟨_, _, rfl, rfl, rfl⟩)
  have hscanned : 0 < report.scanned := by
    rw [audit_scanned, List.countP_pos_iff]
    refine ⟨linkedReport, linkedReport_mem_walk hw _, ?_⟩
    rw [isReadable, readSource_eq_ok_iff.mpr (read_linkedReport hw)]
    rfl
  obtain ⟨more, hmore⟩ := exists_out_checkAll prepare_linkedSession
  obtain ⟨more', hmore'⟩ := @exists_out_runCheckers linkedSession strictOptions ⟨[0x2f, 0x6d]⟩ {}
    .scriptedLocalisation [] tree'
  refine ⟨report, more' ++ more, rfl, hscanned, ?_⟩
  rw [hmore, Checker.all, runCheckers, hfirst]
  dsimp only
  rw [hmore', hsecond]
  simp only [String.append_assoc]
  rfl

-- It is not enough that the directory for reports is not below the root, for a link can lead there.
theorem exists_checkAll_ne_each_alone : ∃ (session : Session) (options : CheckOptions) (root temp : Path)
    (config : Config), session.Sound ∧ session.prepare options = .ok (root, config) ∧
      session.tree.canonical session.tempDir = .ok temp ∧ root.isAbove temp = false ∧
      temp.isAbove root = false ∧
      (∀ checker ∈ Checker.all,
        (session.check checker options (session.reportPath checker)).ending.exitCode ≠ 2) ∧
      ∀ rest, (session.checkAll options).out ≠ String.join (Checker.all.map fun checker =>
        (session.check checker options (session.reportPath checker)).out ++ "\n") ++ rest := by
  refine ⟨linkedSession, strictOptions, ⟨[0x2f, 0x6d]⟩, ⟨[0x2f, 0x74]⟩, {}, linkedSession_sound,
    prepare_linkedSession, rfl, rfl, rfl, fun checker _ => exitCode_check_linkedSession checker,
    fun rest hout => ?_⟩
  have ⟨report, more, hchecker, hscanned, hprinted⟩ := exists_out_checkAll_linkedSession
  have hchars := congrArg String.toList (hprinted.symm.trans hout)
  simp only [Checker.all, List.map_cons, List.map_nil, out_check_linkedSession, String.toList_append,
    String.toList_join, List.flatMap_cons, List.flatMap_nil, List.append_assoc,
    List.append_cancel_left_eq] at hchars
  have hsame : report.scanned = (aloneReport .scriptedLocalisation).scanned :=
    Report.scanned_eq_of_render_append rfl hchecker hchars
  have hzero : (aloneReport .scriptedLocalisation).scanned = 0 := rfl
  omega

end Session

end CrossRef
