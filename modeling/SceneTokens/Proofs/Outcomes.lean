import SceneTokens.Command.Run
import SceneTokens.Proofs.ArgumentItems
import SceneTokens.Proofs.CodeNames
import SceneTokens.Proofs.Configurations
import SceneTokens.Proofs.Listing

/-!
# Outcomes of the command

The exit code of the command tells what became of it.  It refuses to do something
(`Command.Refused`), and says why; it answers, and says nothing else; or it lists the tokens of a
source up to a fault, and the exit code tells the kind of the fault.

Nothing that the command says is empty.  Every message starts with words of its own, except that
of a read that failed, which has to come with a description (`Surroundings.Described`).

A listing takes its settings from three places (`Command.Lists`): the last flags, the
configuration, and the defaults.

Main statement: `Command.run_outcome`.
-/

namespace SceneTokens

open CodeUnit

/-! ## Texts that are not empty -/

namespace Text

theorem ofCodePoint_ne_nil (n : Nat) : ofCodePoint n ≠ [] := by
  unfold ofCodePoint
  split <;> nofun

@[simp] theorem ofString_eq_nil_iff {s : String} : ofString s = [] ↔ s = "" := by
  simp [ofString, ofCodePoint_ne_nil, ← List.eq_nil_iff_forall_not_mem]

theorem unlines_cons_ne_nil {row : Text} (h : row ≠ []) (rows : List Text) :
    unlines (row :: rows) ≠ [] := by
  cases rows <;> simp [unlines, h]

end Text

theorem Document.enclose_ne_nil (opening closing : CodeUnit) (depth : Nat) (rows : List Text) :
    enclose opening closing depth rows ≠ [] := by
  cases rows <;> simp [enclose]

theorem Document.render_array_ne_nil (items : List Document) : (array items).render ≠ [] := by
  rw [render, renderAt]
  exact enclose_ne_nil _ _ _ _

theorem Document.render_object_ne_nil (fields : List (Text × Document)) :
    (object fields).render ≠ [] := by
  rw [render, renderAt]
  exact enclose_ne_nil _ _ _ _

theorem Token.listing_ne_nil (format : OutputFormat) {tokens : List Token} (h : tokens ≠ []) :
    Token.listing format tokens ≠ [] := by
  obtain ⟨token, more, rfl⟩ := List.exists_cons_of_ne_nil h
  cases format with
  | human => exact Text.unlines_cons_ne_nil (by simp [Token.line]) _
  | json => exact Document.render_array_ne_nil _
  | compact => exact Text.unlines_cons_ne_nil (by simp [Token.compactLine]) _

theorem cases_of_bind_eq_error {ε α β : Type} {x : Except ε α} {next : α → Except ε β} {e : ε}
    (h : x >>= next = .error e) : x = .error e ∨ ∃ a, x = .ok a ∧ next a = .error e := by
  cases x with
  | error q =>
    cases h
    exact .inl rfl
  | ok a => exact .inr ⟨a, rfl, h⟩

theorem Enriched.ne_nil_of_render {e : Enriched} {format : OutputFormat} {text : Text}
    (h : e.render format = .ok text) : text ≠ [] := by
  cases format with
  | human =>
    unfold render human at h
    dsimp only at h
    -- With or without a snippet, the first row is the headline.
    have hheadline : ∃ rows, text =
        Text.unlines (("error[" ++ e.id ++ Text.ofString "]: " ++ e.message) :: rows) := by
      split at h
      · split at h <;> obtain ⟨snippet, -, hrows⟩ := exists_of_bind_eq_ok h <;> cases hrows <;>
          exact ⟨_, rfl⟩
      · obtain ⟨snippet, -, hrows⟩ := exists_of_bind_eq_ok h
        cases hrows
        exact ⟨_, rfl⟩
    obtain ⟨rows, rfl⟩ := hheadline
    exact Text.unlines_cons_ne_nil (by simp) _
  | json =>
    cases h
    exact Document.render_object_ne_nil _
  | compact =>
    cases h
    simp [compact, List.intercalate]

theorem Problem.plain_ne_nil {p : Problem} (h : p.message ≠ []) : p.plain ≠ [] := by
  cases p with
  | report r =>
    unfold Problem.plain
    dsimp only
    split
    · simp
    · exact h
    · exact h
    · simp
  | other message => exact h
  | missingFile message path => simp [Problem.plain]

theorem UsageError.message_ne_nil (e : UsageError) : e.message ≠ [] := by
  cases e <;> simp [UsageError.message]

theorem SettingsError.message_ne_nil (e : SettingsError) : e.message ≠ [] := by
  cases e <;> simp [SettingsError.message, SettingsError.reason?, Value.noTextMessage]

namespace ErrorCode

theorem documentation_ne_nil (code : ErrorCode) : code.documentation ≠ [] := by
  unfold documentation
  dsimp only
  exact Text.unlines_cons_ne_nil (by simp) _

theorem unknownAnswer_ne_nil (t : Text) : unknownAnswer t ≠ [] := by
  simp [unknownAnswer]

end ErrorCode

/-! ## Configurations -/

namespace Surroundings

/-- Every read that fails comes with a description. -/
structure Described (s : Surroundings) : Prop where
  configuration : ∀ p, s.configuration = some (.error p) → p.message ≠ []
  source : ∀ name p, s.source name = .error p → p.message ≠ []

theorem described_of_text {text : Text} {source : Text → Except Problem Text}
    {document : Text → Option Value} (h : ∀ name p, source name = .error p → p.message ≠ []) :
    Described ⟨some (.ok text), source, document⟩ := by
  refine ⟨fun p hfailed => ?_, h⟩
  simp at hfailed

/-- The settings without any flags: those of the configuration, or the default ones if there is
no configuration. -/
inductive Base (s : Surroundings) : Settings → Prop
  | absent (h : s.configuration = none) : Base s ⟨.human, true, 2⟩
  | present {text : Text} {value : Value} {settings : Settings}
      (htext : s.configuration = some (.ok text)) (hvalue : s.document text = some value)
      (hsettings : value.Gives settings) : Base s settings

/-- There is a configuration, but it cannot be read or is none. -/
def Invalid (s : Surroundings) : Prop := ∀ settings, ¬s.Base settings

end Surroundings

namespace Command

variable {s : Surroundings}

theorem baseSettings_eq_ok_iff {settings : Settings} :
    baseSettings s = .ok settings ↔ s.Base settings := by
  unfold baseSettings
  constructor
  · intro h
    split at h
    · rename_i hnone
      cases h
      exact .absent hnone
    · rename_i file hfile
      obtain ⟨text, rfl, hsettings⟩ := exists_of_bind_eq_ok h
      cases htext : Settings.ofText s.document text with
      | error e =>
        rw [htext] at hsettings
        cases hsettings
      | ok base =>
        rw [htext] at hsettings
        cases hsettings
        obtain ⟨value, hvalue, hgives⟩ := Settings.ofText_eq_ok_iff.1 htext
        exact .present hfile hvalue hgives
  · rintro (hnone | ⟨hfile, hvalue, hgives⟩)
    · rw [hnone]
      rfl
    · have hsettings := Settings.ofText_eq_ok_iff.2 ⟨_, hvalue, hgives⟩
      rw [hfile]
      show (Settings.ofText s.document _).mapError _ = _
      rw [hsettings]
      rfl

theorem plain_ne_nil_of_baseSettings (hs : s.Described) {p : Problem}
    (h : baseSettings s = .error p) : p.plain ≠ [] := by
  unfold baseSettings at h
  split at h
  · cases h
  · rename_i file hfile
    cases file with
    | error q =>
      cases h
      exact Problem.plain_ne_nil (hs.configuration _ hfile)
    | ok text =>
      have hsettings : (Settings.ofText s.document text).mapError
          (fun e => Problem.other e.message) = .error p := h
      cases htext : Settings.ofText s.document text with
      | ok settings =>
        rw [htext] at hsettings
        cases hsettings
      | error e =>
        rw [htext] at hsettings
        cases hsettings
        exact e.message_ne_nil

/-! ## Listings -/

/-- The settings of a listing: what the last flags choose goes before what the configuration
says. -/
def chosen (items : List Item) (base : Settings) : Settings :=
  ⟨(lastFormat items).getD base.format, (lastComments items).getD base.includeComments,
    base.contextLines⟩

/-- An argument list asks for a listing of a source, and the settings and the source can be
read. -/
inductive Lists (s : Surroundings) (arguments : List Text) : Settings → Text → Prop
  | intro {items : List Item} {file source : Text} {base : Settings}
      (hitems : Splits arguments items) (hfile : files items = [file]) (hbase : s.Base base)
      (hsource : s.source file = .ok source) : Lists s arguments (chosen items base) source

theorem prepare_eq_ok {file : Text} {format : Option OutputFormat} {comments : Option Bool}
    {settings : Settings} {source : Text}
    (h : prepare s file format comments = .ok (settings, source)) :
    ∃ base, s.Base base ∧ s.source file = .ok source ∧
      settings = ⟨format.getD base.format, comments.getD base.includeComments,
        base.contextLines⟩ := by
  unfold prepare at h
  obtain ⟨base, hbase, hrest⟩ := exists_of_bind_eq_ok h
  obtain ⟨read, hread, hpair⟩ := exists_of_bind_eq_ok hrest
  cases hpair
  exact ⟨base, baseSettings_eq_ok_iff.1 hbase, hread, rfl⟩

theorem prepare_eq_error (hs : s.Described) {file : Text} {format : Option OutputFormat}
    {comments : Option Bool} {p : Problem} (h : prepare s file format comments = .error p) :
    (s.Invalid ∨ ∃ q, s.source file = .error q) ∧ p.plain ≠ [] := by
  unfold prepare at h
  rcases cases_of_bind_eq_error h with hbase | ⟨base, -, hrest⟩
  · refine ⟨.inl fun settings hsettings => ?_, plain_ne_nil_of_baseSettings hs hbase⟩
    rw [baseSettings_eq_ok_iff.2 hsettings] at hbase
    cases hbase
  · rcases cases_of_bind_eq_error hrest with hsource | ⟨source, -, hpair⟩
    · exact ⟨.inr ⟨p, hsource⟩, Problem.plain_ne_nil (hs.source file p hsource)⟩
    · cases hpair

/-! ## Outcomes -/

/-- A command cannot be carried out: there is no such code, or the configuration or the source
cannot be used. -/
def Fails (s : Surroundings) : Command → Prop
  | .help | .version => False
  | .explain id => ErrorCode.Unknown id
  | .tokens file _ _ => s.Invalid ∨ ∃ p, s.source file = .error p

/-- Arguments that give no command, or one that cannot be carried out. -/
def Refused (s : Surroundings) (arguments : List Text) : Prop :=
  (∃ e, ofArguments arguments = .error e) ∨
    ∃ command, ofArguments arguments = .ok command ∧ command.Fails s

/-- A listing ends at a fault, which is reported in the source. -/
def Reports (s : Surroundings) (arguments : List Text) (kind : ReportKind) : Prop :=
  ∃ settings source fault, Lists s arguments settings source ∧
    tokenize source settings.includeComments = .error fault ∧
    (Report.ofFault fault).kind = kind ∧
    (Problem.report (Report.ofFault fault)).text source settings.format settings.contextLines =
      .ok (run s arguments).stderr

theorem perform_of_fails (hs : s.Described) {command : Command} (h : command.Fails s) :
    ∃ message, message ≠ [] ∧ command.perform s = ⟨[], message, .usageError⟩ := by
  cases command with
  | help | version => exact h.elim
  | explain id =>
    refine ⟨_, ErrorCode.unknownAnswer_ne_nil id, ?_⟩
    simp only [perform, ErrorCode.explain?_eq_none_iff.2 h]
  | tokens file format comments =>
    cases hprepare : prepare s file format comments with
    | error p =>
      refine ⟨_, (prepare_eq_error hs hprepare).2, ?_⟩
      simp only [perform, hprepare]
    | ok pair =>
      obtain ⟨base, hbase, hsource, -⟩ := prepare_eq_ok hprepare
      rcases h with hinvalid | ⟨p, hp⟩
      · exact absurd hbase (hinvalid base)
      · rw [hsource] at hp
        cases hp

theorem perform_of_not_fails (hs : s.Described) {command : Command} (h : ¬command.Fails s) :
    (∃ answer, answer ≠ [] ∧ command.perform s = ⟨answer, [], .ok⟩) ∧
        (∀ file format comments, command ≠ .tokens file format comments) ∨
      ∃ file format comments base source, command = .tokens file format comments ∧
        s.Base base ∧ s.source file = .ok source ∧
        command.perform s = lexSource source ⟨format.getD base.format,
          comments.getD base.includeComments, base.contextLines⟩ := by
  cases command with
  | help => exact .inl ⟨⟨_, Text.unlines_cons_ne_nil (by simp) _, rfl⟩, nofun⟩
  | version => exact .inl ⟨⟨_, by simp, rfl⟩, nofun⟩
  | explain id =>
    cases hexplain : ErrorCode.explain? id with
    | none => exact absurd (ErrorCode.explain?_eq_none_iff.1 hexplain) h
    | some documentation =>
      obtain ⟨code, -, rfl⟩ := Option.map_eq_some_iff.1 hexplain
      refine .inl ⟨⟨_, code.documentation_ne_nil, ?_⟩, nofun⟩
      simp only [perform, hexplain]
  | tokens file format comments =>
    cases hprepare : prepare s file format comments with
    | error p => exact absurd (prepare_eq_error hs hprepare).1 h
    | ok pair =>
      obtain ⟨settings, source⟩ := pair
      obtain ⟨base, hbase, hsource, rfl⟩ := prepare_eq_ok hprepare
      refine .inr ⟨file, format, comments, base, source, rfl, hbase, hsource, ?_⟩
      simp only [perform, hprepare]

/-- What becomes of a command: it is refused, or it is answered, or it lists a source. -/
theorem run_cases (hs : s.Described) (arguments : List Text) :
    (Refused s arguments ∧ ∃ message, message ≠ [] ∧
      run s arguments = ⟨[], message, .usageError⟩) ∨
    ¬Refused s arguments ∧
      ((∃ answer, answer ≠ [] ∧ run s arguments = ⟨answer, [], .ok⟩) ∧
          (∀ file format comments, ofArguments arguments ≠ .ok (.tokens file format comments)) ∨
        ∃ settings source, Lists s arguments settings source ∧
          run s arguments = lexSource source settings) := by
  cases harguments : ofArguments arguments with
  | error e =>
    refine .inl ⟨.inl ⟨e, harguments⟩, _, e.message_ne_nil, ?_⟩
    unfold run
    rw [harguments]
  | ok command =>
    have hrun : run s arguments = command.perform s := by
      unfold run
      rw [harguments]
    have hrefused : Refused s arguments ↔ command.Fails s := by
      simp [Refused, harguments]
    rw [hrun, hrefused]
    by_cases hfails : command.Fails s
    · exact .inl ⟨hfails, perform_of_fails hs hfails⟩
    refine .inr ⟨hfails, ?_⟩
    rcases perform_of_not_fails hs hfails with ⟨hanswer, hother⟩ |
      ⟨file, format, comments, base, source, rfl, hbase, hsource, hperform⟩
    · refine .inl ⟨hanswer, fun file format comments h => ?_⟩
      exact hother file format comments (Except.ok.inj h)
    · obtain ⟨-, -, items, hitems, hfile, rfl, rfl⟩ := ofArguments_eq_ok_iff.1 harguments
      exact .inr ⟨_, source, .intro hitems hfile hbase hsource, hperform⟩

end Command

theorem Surroundings.Base.contextLines_nonneg {s : Surroundings} {settings : Settings}
    (h : s.Base settings) : 0 ≤ settings.contextLines := by
  cases h with
  | absent => decide
  | present htext hvalue hsettings =>
    rcases hsettings with hconfigures | ⟨-, rfl⟩
    · cases hconfigures with
      | empty => decide
      | mapping hkeys hformat hcomments hlines =>
        rcases hlines with ⟨-, rfl⟩ | ⟨value, -, hcount⟩
        · exact Int.zero_le_ofNat 2
        · exact hcount.1
    · decide

theorem Token.keepComments_ne_nil {comments : Bool} {body : List Token} {last : Token}
    (h : last.kind = .endOfStream) : keepComments comments (body ++ [last]) ≠ [] := by
  have hkept : last ∈ keepComments comments (body ++ [last]) := by
    unfold keepComments
    split
    · simp
    · exact List.mem_filter.2 ⟨by simp, by rw [h]; rfl⟩
  exact List.ne_nil_of_mem hkept

/-- A source is listed to the end, or up to a fault that is reported. -/
theorem lexSource_cases (source : Text) {settings : Settings}
    (haround : 0 ≤ settings.contextLines) :
    (∃ listing, listing ≠ [] ∧ lexSource source settings = ⟨listing, [], .ok⟩) ∨
      ∃ fault, tokenize source settings.includeComments = .error fault ∧
        (Problem.report (Report.ofFault fault)).text source settings.format
          settings.contextLines = .ok (lexSource source settings).stderr ∧
        (lexSource source settings).stderr ≠ [] ∧
        ((Report.ofFault fault).kind = .lexer ∧ (lexSource source settings).code.toNat = 1 ∨
          (Report.ofFault fault).kind = .contract ∧
            (lexSource source settings).code.toNat = 3) := by
  cases h : tokenize source settings.includeComments with
  | ok tokens =>
    obtain ⟨body, last, -, -, hlast, -, rfl⟩ := Stream.calls_of_tokenize h 0
    exact .inl ⟨_, Token.listing_ne_nil _ (Token.keepComments_ne_nil hlast),
      lexSource_of_tokens h⟩
  | error fault =>
    have hreports := Outcome.reports_of_fault haround (tokenize_eq_error_iff.1 h)
    exact .inr ⟨fault, rfl, hreports.rendered, Enriched.ne_nil_of_render hreports.rendered,
      hreports.code⟩

namespace Command

/-- The outcome of the command for any arguments, whatever it can read.

* The exit code is 2 exactly if the command is refused.  Then it says why, and nothing else.
* It is 0 only if there is an answer, and nothing else.
* It is 1 only if a listing ends at malformed source, and 3 only if it ends where a contract is
  broken.  The fault is reported.
* What asks for a listing and is not refused lists the source, in the settings that the last
  flags choose, or else the configuration, or else the defaults. -/
theorem run_outcome {s : Surroundings} (hs : s.Described) (arguments : List Text) :
    ((run s arguments).code.toNat = 2 ↔ Refused s arguments) ∧
    ((run s arguments).code.toNat = 2 →
      (run s arguments).stdout = [] ∧ (run s arguments).stderr ≠ []) ∧
    ((run s arguments).code.toNat = 0 →
      (run s arguments).stderr = [] ∧ (run s arguments).stdout ≠ []) ∧
    ((run s arguments).code.toNat = 1 →
      Reports s arguments .lexer ∧ (run s arguments).stderr ≠ []) ∧
    ((run s arguments).code.toNat = 3 →
      Reports s arguments .contract ∧ (run s arguments).stderr ≠ []) ∧
    ∀ file format comments, ofArguments arguments = .ok (.tokens file format comments) →
      ¬Refused s arguments → ∃ settings source, Lists s arguments settings source ∧
        run s arguments = lexSource source settings := by
  -- Each way has one exit code, except that of a listing, which may end at a fault.  The parts
  -- about other codes hold for want of a case.
  rcases run_cases hs arguments with ⟨hrefused, message, hmessage, hrun⟩ |
    ⟨hrefused, ⟨⟨answer, hanswer, hrun⟩, hother⟩ | ⟨settings, source, hlists, hrun⟩⟩
  · rw [hrun]
    exact ⟨⟨fun _ => hrefused, fun _ => rfl⟩, fun _ => ⟨rfl, hmessage⟩, nofun, nofun, nofun,
      fun _ _ _ _ h => absurd hrefused h⟩
  · rw [hrun]
    exact ⟨⟨nofun, fun h => absurd h hrefused⟩, nofun, fun _ => ⟨rfl, hanswer⟩, nofun, nofun,
      fun _ _ _ h => absurd h (hother _ _ _)⟩
  · have haround : 0 ≤ settings.contextLines := by
      obtain ⟨-, -, hbase, -⟩ := hlists
      exact hbase.contextLines_nonneg
    have hlisted : ∀ file format comments,
        ofArguments arguments = .ok (.tokens file format comments) → ¬Refused s arguments →
          ∃ settings source, Lists s arguments settings source ∧
            run s arguments = lexSource source settings :=
      fun _ _ _ _ _ => ⟨settings, source, hlists, hrun⟩
    rcases lexSource_cases source haround with ⟨listing, hlisting, hanswer⟩ |
      ⟨fault, hfault, htext, hstderr, hcode⟩
    · refine ⟨?_, ?_, ?_, ?_, ?_, hlisted⟩ <;> rw [hrun, hanswer]
      · exact ⟨nofun, fun h => absurd h hrefused⟩
      · nofun
      · exact fun _ => ⟨rfl, hlisting⟩
      · nofun
      · nofun
    · rw [← hrun] at htext hstderr hcode
      have hreports : ∀ kind, (Report.ofFault fault).kind = kind → Reports s arguments kind :=
        fun kind hkind => ⟨settings, source, fault, hlists, hfault, hkind, htext⟩
      rcases hcode with ⟨hkind, hcode⟩ | ⟨hkind, hcode⟩
      · rw [hcode]
        exact ⟨⟨nofun, fun h => absurd h hrefused⟩, nofun, nofun,
          fun _ => ⟨hreports _ hkind, hstderr⟩, nofun, hlisted⟩
      · rw [hcode]
        exact ⟨⟨nofun, fun h => absurd h hrefused⟩, nofun, nofun, nofun,
          fun _ => ⟨hreports _ hkind, hstderr⟩, hlisted⟩

/-- A source that has a bare carriage return is listed up to it; another source is not there. -/
theorem run_outcome_bare_return :
    let s : Surroundings :=
      { configuration := some (.ok "format: compact")
        source := fun name => if name == "scene" then .ok "a\rb" else .error (.noSuchFile name)
        document := fun text =>
          if text == "format: compact" then some (.map [("format", .text "compact")]) else none }
    s.Described ∧
      run s ["--no-comments", "scene"] =
        ⟨"1:0 IDENTIFIER \"a\"",
          "[SCN-C001] Carriage return not followed by line feed at 1:1", .contractError⟩ ∧
      Reports s ["--no-comments", "scene"] .contract ∧
      run s ["other"] = ⟨[], "File not found: other", .usageError⟩ ∧ Refused s ["other"] := by
  intro s
  have hs : s.Described := by
    refine Surroundings.described_of_text fun name p h => ?_
    split at h
    · cases h
    · cases h
      simp [Problem.noSuchFile, Problem.message]
  have hlisted : run s ["--no-comments", "scene"] =
      ⟨"1:0 IDENTIFIER \"a\"",
        "[SCN-C001] Carriage return not followed by line feed at 1:1", .contractError⟩ := by
    decide +kernel
  have hrefused : run s ["other"] = ⟨[], "File not found: other", .usageError⟩ := by
    decide +kernel
  refine ⟨hs, hlisted, ?_, hrefused, ?_⟩
  · obtain ⟨-, -, -, -, hcontract, -⟩ := run_outcome hs ["--no-comments", "scene"]
    rw [hlisted] at hcontract
    exact (hcontract rfl).1
  · obtain ⟨hcode, -⟩ := run_outcome hs ["other"]
    rw [hrefused] at hcode
    exact hcode.1 rfl

end Command

end SceneTokens
