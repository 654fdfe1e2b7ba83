import Mathlib
import AccessRules.CommandLine.Machine
import AccessRules.CommandLine.Run

/-!
# The ways to decide by a rule

A rule is applied on its own, for an operation of a rule set, for an operation of a collection, and by
the command `eval`. All of them come to the answer of the guard that the text stands for, except that
the command reads the empty text as a rule, which it is not:

> `decide_of_rule`: a rule set decides by the answer of the guard, and so does a collection.
> `decideByRule_eq`: so does a text given on its own, unless it is empty.
> `run_evaluation`: the command reports the decision by the text, in the context of its file.

> `entry_points_agree`: all four agree for every text but the empty one.
-/

namespace AccessRules

open Rule

/-! ## Decisions -/

/-- The decision on an answer, with the reason if it is no. -/
def Decision.ofAnswer (reason : Denial) (answer : Bool) : Decision :=
  if answer then .allow else .deny reason

/-- Naming the reason of a denial does not change the answer. -/
theorem Decision.allowed_ofAnswer (reason : Denial) (answer : Bool) :
    (ofAnswer reason answer).allowed = answer := by
  cases answer <;> rfl

/-- The answers of decisions are the answers that the decisions were made on. -/
theorem Decision.map_allowed_ofAnswer (reason : Denial) (r : Except Error Bool) :
    (r.map (ofAnswer reason)).map allowed = r := by
  cases r with
  | error e => rfl
  | ok answer =>
    show Except.ok (ofAnswer reason answer).allowed = _
    rw [allowed_ofAnswer]

variable {source : String} {context : Context} {hour : Hour}

/-- A rule set with a text for an operation decides by the answer of its guard. -/
theorem RuleSet.decide_of_rule {rules : RuleSet} {operation : Operation}
    (h : rules.rule operation = some source) :
    rules.decide operation context hour =
      ((Guard.ofText? (some source)).admits context hour).map
        (Decision.ofAnswer (.ruleFalse operation)) := by
  unfold decide guard
  rw [h]
  have hguard : Guard.ofText? (some source) ≠ .denyAll := by
    unfold Guard.ofText?
    by_cases hempty : source = "" <;> simp [hempty]
  cases hg : Guard.ofText? (some source) with
  | denyAll => exact absurd hg hguard
  | allowAll => rfl
  | rule source =>
    dsimp only
    cases (Guard.rule source).admits context hour with
    | error e => rfl
    | ok answer => cases answer <;> rfl

/-- A text on its own is decided by the answer of its guard, unless it is empty. -/
theorem decideByRule_eq (h : source ≠ "") :
    decideByRule source context hour =
      ((Guard.ofText? (some source)).admits context hour).map (Decision.ofAnswer .false) := by
  have hguard : Guard.ofText? (some source) = .rule source := if_neg h
  rw [hguard]
  unfold decideByRule Guard.admits
  dsimp only
  cases parse source with
  | error e => rfl
  | ok e =>
    dsimp only
    cases e.holds context hour with
    | error fault => rfl
    | ok answer => cases answer <;> rfl

namespace CommandLine

/-! ## Steps that change nothing -/

variable {α β : Type} {machine : Machine}

/-- A step that leaves the machine alone hands its result to the rest, and the machine as it was. -/
theorem bind_of_eq {action : StateM Machine α} {a : α} (h : action machine = (a, machine))
    (next : α → StateM Machine β) : (action >>= next) machine = next a machine := by
  show StateT.bind action next machine = _
  unfold StateT.bind
  rw [h]
  rfl

/-- The action leaves every machine as it is. -/
def Quiet (action : StateM Machine α) : Prop :=
  ∀ machine, ∃ a, action machine = (a, machine)

theorem quiet_pure (a : α) : Quiet (pure a) := fun _ => ⟨a, rfl⟩

/-- Steps that only look at the machine, one behind the other, only look at it. -/
theorem Quiet.bind {action : StateM Machine α} {next : α → StateM Machine β} (h : Quiet action)
    (h' : ∀ a, Quiet (next a)) : Quiet (action >>= next) := by
  intro machine
  obtain ⟨a, ha⟩ := h machine
  obtain ⟨b, hb⟩ := h' a machine
  exact ⟨b, (bind_of_eq ha next).trans hb⟩

theorem quiet_hostValueOf? (name : String) :
    Quiet (Host.valueOf? name : StateM Machine (Option String)) :=
  fun machine => ⟨machine.environment.lookup name, rfl⟩

theorem quiet_valueOf? (assigned : List (String × String)) (name : String) :
    Quiet (valueOf? assigned name : StateM Machine (Option String)) := by
  refine (quiet_hostValueOf? name).bind ?_
  intro value
  cases value with
  | none => exact quiet_pure _
  | some value => exact quiet_pure _

/-- Writing a value out of its parts asks for variables and changes nothing. -/
theorem quiet_valueText (assigned : List (String × String)) :
    (parts : List ValuePart) → Quiet (valueText assigned parts : StateM Machine String)
  | [] => quiet_pure _
  | .char _ :: parts => (quiet_valueText assigned parts).bind fun _ => quiet_pure _
  | .variable name :: parts =>
    (quiet_valueOf? assigned name).bind fun _ =>
      (quiet_valueText assigned parts).bind fun _ => quiet_pure _

/-- The assignments are gone through one by one, each seeing the ones in front of it, and the
machine stays the same. -/
theorem quiet_assign : (assigned : List (String × String)) → (rest : List Assignment) →
    Quiet (assign assigned rest : StateM Machine (List (String × String)))
  | assigned, [] => quiet_pure _
  | assigned, a :: rest => by
    refine (quiet_valueText assigned a.value).bind ?_
    intro value
    refine (quiet_valueOf? assigned a.name).bind ?_
    intro before
    cases before with
    | none => exact quiet_assign _ rest
    | some _ => exact quiet_assign _ rest

/-- Reading the file of variables changes nothing. -/
theorem quiet_assignedVariables :
    Quiet (assignedVariables : StateM Machine (List (String × String))) := by
  have hfile : Quiet (Host.variableFile? : StateM Machine (Option String)) :=
    fun machine => ⟨(machine.read ".env").toOption, rfl⟩
  refine hfile.bind ?_
  intro text
  cases text with
  | none => exact quiet_pure _
  | some text => exact quiet_assign _ _

/-- `Gives step machine result`: on the machine the step ends with the result and changes nothing. -/
def Gives (step : Step (StateM Machine) α) (machine : Machine) (result : Except String α) : Prop :=
  step.run machine = (result, machine)

theorem gives_pure (a : α) : Gives (pure a) machine (.ok a) := rfl

/-- A result goes on to the next step; an error of that step is the error of both. -/
theorem Gives.bind {step : Step (StateM Machine) α} {next : α → Step (StateM Machine) β} {a : α}
    {result : Except String β} (h : Gives step machine (.ok a))
    (h' : Gives (next a) machine result) : Gives (step >>= next) machine result := by
  have hstep : (step.run : StateM Machine (Except String α)) machine = (.ok a, machine) := h
  exact (bind_of_eq hstep (ExceptT.bindCont next)).trans h'

/-- What the host is asked for is given. -/
theorem gives_lift {action : StateM Machine α} {a : α} (h : action machine = (a, machine)) :
    Gives (liftM action) machine (.ok a) := by
  show StateT.map Except.ok action machine = _
  unfold StateT.map
  rw [h]
  rfl

/-! ## What the machine has -/

/-- The settings of the user of a machine. -/
def Machine.Remembers (machine : Machine) (settings : Settings) : Prop :=
  match machine.settings with
  | none => settings = .empty
  | some text => Settings.read? text = some settings

/-- The context in a file of a machine; without a file it is empty. -/
def Machine.Provides (machine : Machine) (contextFile : Option String) (context : Context) : Prop :=
  match contextFile with
  | none => context = .empty
  | some path => ∃ text json, machine.read path = .ok text ∧ Json.read? text = some json ∧
      Context.ofJson json = .ok context

/-- The settings that the machine remembers are the ones that are loaded. -/
theorem gives_loadSettings {settings : Settings} (h : machine.Remembers settings) :
    Gives loadSettings machine (.ok settings) := by
  unfold Machine.Remembers at h
  -- A machine that remembers no settings gives the default ones.
  cases htext : machine.settings with
  | none =>
    rw [htext] at h
    have hsettings : (Host.settings : StateM Machine (Except FileFault String)) machine =
        (.error .notFound, machine) := by
      show (_, machine) = _
      rw [htext]
    rw [h]
    exact (gives_lift hsettings).bind rfl
  | some text =>
    rw [htext] at h
    have hsettings : (Host.settings : StateM Machine (Except FileFault String)) machine =
        (.ok text, machine) := by
      show (_, machine) = _
      rw [htext]
    refine (gives_lift hsettings).bind ?_
    dsimp only
    rw [h]
    exact gives_pure _

theorem gives_loadContext {contextFile : Option String} (h : machine.Provides contextFile context) :
    Gives (loadContext contextFile) machine (.ok context) := by
  cases contextFile with
  | none =>
    have hempty : context = .empty := h
    rw [hempty]
    exact gives_pure _
  | some path =>
    obtain ⟨text, json, hread, hjson, hcontext⟩ := h
    have hfile : Gives (readFile path) machine (.ok text) := by
      have hhost : (Host.read path : StateM Machine (Except FileFault String)) machine =
          (.ok text, machine) := by
        show (machine.read path, machine) = _
        rw [hread]
      exact (gives_lift hhost).bind (gives_pure _)
    refine hfile.bind ?_
    rw [hjson]
    show Gives (ofResult (Context.ofJson json)) machine _
    rw [hcontext]
    exact gives_pure _

/-! ## The command -/

/-- What is reported on the outcome of a step. -/
def Report.ofStep : Except String Report → Report
  | .ok report => report
  | .error message => .failure message

/-- The report on an answer: the decision on it, or what went wrong. -/
def Report.ofAnswer (format : OutputFormat) : Except Error Bool → Report
  | .ok answer => decisionReport format (.ofAnswer .false answer)
  | .error e => .failure e.message

/-- `Evaluates machine words source context hour format`: the words ask to evaluate the rule text, and
the machine has the context and the clock for it, and settings that can be read. -/
inductive Evaluates (machine : Machine) : List String → String → Context → Hour → OutputFormat → Prop
  | intro {words : List String} {source : String} {context : Context} {collections : Option String}
      {format : Option OutputFormat} {contextFile : Option String} {now : Option Moment}
      {settings : Settings} :
      Invocation.ofWords words =
        .ok ⟨collections, format, .evaluate ⟨some source, none, none⟩ contextFile now⟩ →
      machine.Remembers settings → machine.Provides contextFile context →
      Evaluates machine words source context ((now.map Moment.hour).getD machine.hour)
        ((format <|> settings.format).getD .text)

/-- A decision is reported, and an error of the library ends the command. -/
theorem gives_decision (format : OutputFormat) (r : Except Error Decision) :
    Gives (do return decisionReport format (← ofResult r)) machine
      ((r.mapError Error.message).map (decisionReport format)) := by
  cases r <;> rfl

/-- An evaluation of a source reports how the rule decides in the provided context, at the given
moment or else at the machine's hour. -/
theorem gives_evaluate {c : Circumstances} {contextFile : Option String} {now : Option Moment}
    (h : machine.Provides contextFile context) :
    Gives (evaluate c ⟨some source, none, none⟩ contextFile now) machine
      (((decideByRule source context ((now.map Moment.hour).getD machine.hour)).mapError
        Error.message).map (decisionReport c.format)) := by
  have hsubject : Gives (subject ⟨some source, none, none⟩) machine (.ok (.rule source)) := rfl
  refine hsubject.bind ((gives_loadContext h).bind ?_)
  cases now with
  | some moment => exact (gives_pure moment.hour).bind (gives_decision _ _)
  | none =>
    have hhour : (Host.hour : StateM Machine Hour) machine = (machine.hour, machine) := rfl
    exact (gives_lift hhour).bind (gives_decision _ _)

/-- What holds for a command is found out without failure. -/
theorem gives_circumstances {settings : Settings} (h : machine.Remembers settings)
    (assigned : List (String × String)) (i : Invocation) :
    ∃ collections, Gives (circumstances assigned i) machine
      (.ok ⟨collections, (i.format <|> settings.format).getD .text⟩) := by
  have hdirectory : Quiet (directoryContext : StateM Machine DirectoryContext) := by
    have hread : Quiet (Host.read DirectoryContext.path :
        StateM Machine (Except FileFault String)) := fun machine => ⟨machine.read _, rfl⟩
    refine hread.bind ?_
    intro text
    cases text with
    | error _ => exact quiet_pure _
    | ok text => exact quiet_pure _
  obtain ⟨remembered, hremembered⟩ := hdirectory machine
  obtain ⟨named, hnamed⟩ := quiet_valueOf? assigned collectionsVariable machine
  refine ⟨_, (gives_loadSettings h).bind ((gives_lift hremembered).bind
    ((gives_lift hnamed).bind (gives_pure _)))⟩

/-- **The command reports the decision by the text**, and leaves the machine as it is. -/
theorem run_evaluation {words : List String} {format : OutputFormat}
    (h : Evaluates machine words source context hour format) :
    (run words : StateM Machine Report) machine =
      (Report.ofStep (((decideByRule source context hour).mapError Error.message).map
        (decisionReport format)), machine) := by
  cases h with
  | @intro place format contextFile now settings hwords hsettings hcontext =>
    let invocation : Invocation :=
      ⟨place, format, .evaluate ⟨some source, none, none⟩ contextFile now⟩
    obtain ⟨assigned, hassigned⟩ := quiet_assignedVariables machine
    obtain ⟨collections, hcircumstances⟩ := gives_circumstances hsettings assigned invocation
    have hperform : Gives (perform assigned invocation) machine _ :=
      hcircumstances.bind (gives_evaluate hcontext)
    rw [run, bind_of_eq hassigned, hwords]
    refine (bind_of_eq hperform _).trans ?_
    cases decideByRule source context ((now.map Moment.hour).getD machine.hour) <;> rfl

/-- The words that ask to evaluate a rule in the context of a file. Any text can be the rule. -/
theorem ofWords_eval {path : String} (hpath : path ≠ "")
    (hvalue : Words.looksLikeOption path = false) (source : String) :
    Invocation.ofWords ["eval", "--context", path, "--", source] =
      .ok ⟨none, none, .evaluate ⟨some source, none, none⟩ (some path) none⟩ := by
  have hroot : Words.read Invocation.rootLevel true .empty
      ["eval", "--context", path, "--", source] =
        .ok ⟨[], [], some ("eval", ["--context", path, "--", source])⟩ := rfl
  have hread : Words.read Invocation.evaluateLevel false .empty
      ["--context", path, "--", source] = .ok ⟨[("context", path)], [source], none⟩ := by
    have hlong : "--context".startsWith "--" = true := by decide +kernel
    have hname : Words.longOption "--context" = ("context", none) := by decide +kernel
    have hadd : Words.addOption Invocation.evaluateLevel .empty "context" path =
        .ok ⟨[("context", path)], [], none⟩ := rfl
    simp only [Words.read, hlong, hname, hvalue, hadd]
    rfl
  -- A path is taken as it is, unless it is empty.
  have hmeaning : Invocation.meaning? ⟨[("context", path)], [source], none⟩ "context"
      Invocation.path? = .ok (some path) := by
    have hoption : Words.option? ⟨[("context", path)], [source], none⟩ "context" = some path := rfl
    rw [Invocation.meaning?, hoption]
    dsimp only
    rw [Invocation.path?, if_neg hpath]
  have hleaf : Invocation.leaf Invocation.evaluateLevel ["--context", path, "--", source]
      Invocation.evaluation =
        .ok ⟨none, none, .evaluate ⟨some source, none, none⟩ (some path) none⟩ := by
    rw [Invocation.leaf, hread]
    dsimp only [bind, Except.bind]
    rw [Invocation.evaluation, hmeaning]
    rfl
  rw [Invocation.ofWords, hroot]
  show (Invocation.leaf Invocation.evaluateLevel ["--context", path, "--", source]
    Invocation.evaluation >>= fun inner => Invocation.around _ inner >>= _) = _
  rw [hleaf]
  rfl

/-! ## Where they agree -/

/-- The empty text is allowed to everyone, but it is no rule that can be read. -/
theorem decideByRule_empty : ∃ e, decideByRule "" context hour = .error e := by
  have hparse : (parse "").toOption = none := by
    decide +kernel
  unfold decideByRule
  cases h : parse "" with
  | error e => exact ⟨_, rfl⟩
  | ok e =>
    rw [h] at hparse
    cases hparse

/-- **All ways to decide by a rule agree, except on the empty text.** A rule set and a collection answer
as the guard of the text does, and give a reason exactly when they deny. The command reports this
answer, or the same error, for every text but the empty one, for which it reports an error. -/
theorem entry_points_agree (source : String) (context : Context) (hour : Hour) :
    (∀ (rules : RuleSet) (operation : Operation), rules.rule operation = some source →
      (rules.decide operation context hour).map Decision.allowed =
        (Guard.ofText? (some source)).admits context hour) ∧
    (∀ (collection : Schema.Collection) (operation : Operation),
      collection.rules.rule operation = some source →
      (collection.authorize operation context hour).map Decision.allowed =
        (Guard.ofText? (some source)).admits context hour) ∧
    (∀ decision : Decision, decision.reason?.isSome = !decision.allowed) ∧
    ∀ (machine : Machine) (words : List String) (format : OutputFormat),
      Evaluates machine words source context hour format →
      ∃ report, (run words : StateM Machine Report) machine = (report, machine) ∧
        (report = .ofAnswer format ((Guard.ofText? (some source)).admits context hour) ↔
          source ≠ "") := by
  refine ⟨?_, ?_, ?_, ?_⟩
  · intro rules operation h
    rw [RuleSet.decide_of_rule h, Decision.map_allowed_ofAnswer]
  · intro collection operation h
    rw [Schema.Collection.authorize, RuleSet.decide_of_rule h, Decision.map_allowed_ofAnswer]
  · intro decision
    cases decision <;> rfl
  · intro machine words format h
    refine ⟨_, run_evaluation h, ?_⟩
    constructor
    · rintro hreport rfl
      obtain ⟨e, he⟩ : ∃ e, decideByRule "" context hour = .error e := decideByRule_empty
      rw [he] at hreport
      -- Whatever the error is, its exit code is not that of an answer.
      have hcode := congrArg Report.exitCode hreport
      cases hcode
    · intro hsource
      rw [decideByRule_eq hsource]
      cases (Guard.ofText? (some source)).admits context hour <;> rfl

/-- A rule on the title and the hour is allowed by all of them for a document of that title, in the
hour of the machine. -/
theorem entry_points_agree_title_hour :
    let source := "title == 'a' and @in_time_range(9, 17)"
    let context : Context := ⟨[("title", .string "a")]⟩
    let collection : Schema.Collection := ⟨"posts", [], ⟨some source, none, none, none, none⟩⟩
    let machine : Machine := ⟨.directory [("c", .file "\x7b\"title\": \"a\"\x7d")], [], none, 9⟩
    let words := ["eval", "--context", "c", "--", source]
    source ≠ "" ∧ collection.rules.rule .list = some source ∧
      Evaluates machine words source context 9 .text ∧
      (Guard.ofText? (some source)).admits context 9 = .ok true ∧
      (collection.rules.decide .list context 9).map Decision.allowed = .ok true ∧
      (collection.authorize .list context 9).map Decision.allowed = .ok true ∧
      (run words : StateM Machine Report) machine = (.success "allowed\n", machine) := by
  intro source context collection machine words
  have hsource : source ≠ "" := by decide
  have hevaluates : Evaluates machine words source context 9 .text := by
    have hfile : machine.Provides (some "c") context := by
      have hread : machine.read "c" = .ok "\x7b\"title\": \"a\"\x7d" := by cbv
      have hjson : Json.read? "\x7b\"title\": \"a\"\x7d" =
          some (.object [("title", .string "a")]) := by cbv
      exact ⟨_, _, hread, hjson, rfl⟩
    have hsettings : machine.Remembers .empty := rfl
    exact .intro (ofWords_eval (by decide) (by decide +kernel) source) hsettings hfile
  have hanswer : (Guard.ofText? (some source)).admits context 9 = .ok true := by
    have hyes : ((Guard.ofText? (some source)).admits context 9).toOption = some true := by
      decide +kernel
    cases h : (Guard.ofText? (some source)).admits context 9 with
    | error e =>
      rw [h] at hyes
      cases hyes
    | ok answer =>
      rw [h] at hyes
      cases hyes
      rfl
  obtain ⟨hset, hcollection, -, hcommand⟩ := entry_points_agree source context 9
  have hdecide := hset collection.rules .list rfl
  have hauthorize := hcollection collection .list rfl
  obtain ⟨report, hrun, hreport⟩ := hcommand machine words .text hevaluates
  rw [hreport.mpr hsource] at hrun
  rw [hanswer] at hdecide hauthorize hrun
  exact ⟨hsource, rfl, hevaluates, hanswer, hdecide, hauthorize, hrun⟩

/-- The empty text is allowed for an operation, but the command fails on it. -/
theorem eval_fails_empty_text :
    let machine : Machine := ⟨.directory [], [], none, 9⟩
    Evaluates machine ["eval", ""] "" .empty 9 .text ∧
      (Guard.ofText? (some "")).admits .empty 9 = .ok true ∧
      ∃ message, (run ["eval", ""] : StateM Machine Report) machine =
        (.failure message, machine) := by
  intro machine
  have hevaluates : Evaluates machine ["eval", ""] "" .empty 9 .text := by
    have hwords : Invocation.ofWords ["eval", ""] =
        .ok ⟨none, none, .evaluate ⟨some "", none, none⟩ none none⟩ := rfl
    have hsettings : machine.Remembers .empty := rfl
    have hfile : machine.Provides none .empty := rfl
    exact .intro hwords hsettings hfile
  obtain ⟨e, he⟩ : ∃ e, decideByRule "" .empty 9 = .error e := decideByRule_empty
  have hrun := run_evaluation hevaluates
  rw [he] at hrun
  exact ⟨hevaluates, rfl, e.message, hrun⟩

end CommandLine

end AccessRules
