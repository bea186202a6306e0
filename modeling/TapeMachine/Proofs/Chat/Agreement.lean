import TapeMachine.Proofs.Chat.Reply
import TapeMachine.Runner.Response

/-!
The chat command and the runner are two ways to the same run. Each one gets a config and a program
together by itself and reports in its own way. Here both are traced back to the sandbox of the
config and the program, so on the same readings they show the same text; and of a message no more
than the first word gets that far.
-/

namespace TapeMachine

open Text

namespace Runner

variable {σ τ : Type} [Clock σ] [Clock τ] {read : String → Except ReadError String}
  {arguments : List String} {o : Options} {base config : Config} {path : String}

namespace Options

/-- The config of a command line before its budget is put in: that of the file if one is named, and
otherwise one made for the budget. -/
inductive StartsFrom (o : Options) (read : String → Except ReadError String) : Config → Prop where
  | file {path : String} {config : Config} (named : o.config = some path)
      (loaded : Config.ofFile path (read path) = .ok config) : StartsFrom o read config
  | budget {timeout : UInt64} (unnamed : o.config = none) (given : o.timeout = some timeout) :
      StartsFrom o read (.ofTimeout timeout)

/-- A config with the budget of the command line, if any, in place of its own. -/
def budgeted (o : Options) (base : Config) : Config :=
  { base with timeout := o.timeout.getD base.timeout }

theorem usableConfig_eq (h : o.StartsFrom read base) :
    o.usableConfig read =
      match (o.budgeted base).limitError? with
      | some e => .error (.outOfRange e)
      | none => .ok (o.budgeted base) := by
  cases h with
  | file named loaded =>
      simp only [usableConfig, named, loaded]
      rfl
  | budget unnamed given =>
      simp only [usableConfig, unnamed, given, budgeted]
      rfl

/-- The loop depth of the file has been checked, and the one made for a budget is in range. -/
theorem StartsFrom.limitError?_budgeted (h : o.StartsFrom read base) :
    (o.budgeted base).limitError? =
      if o.timeout = some 0 then some (.invalidTimeout 0) else none := by
  cases h with
  | file named loaded =>
      obtain ⟨htimeout, hallowed⟩ := Config.limitError?_eq_none_iff.mp (Config.ofFile_usable loaded)
      cases hgiven : o.timeout with
      | none => simp [Config.limitError?, budgeted, hgiven, htimeout, hallowed]
      | some timeout =>
          by_cases hzero : timeout = 0 <;>
            simp [Config.limitError?, budgeted, hgiven, hzero, hallowed]
  | @budget timeout unnamed given =>
      have hdefault : Limits.Allowed Limits.defaultLoopDepth.toUInt64.toNat := by decide
      have hallowed : Limits.Allowed (Config.ofTimeout timeout).maxLoopDepth.toNat := hdefault
      by_cases hzero : timeout = 0 <;>
        simp [Config.limitError?, budgeted, given, hzero, hallowed]

/-- A budget of nothing is refused; any other command line that has a config to start from gets it,
with the budget put in. -/
theorem usableConfig_of_startsFrom (h : o.StartsFrom read base) :
    o.usableConfig read =
      if o.timeout = some 0 then .error (.outOfRange (.invalidTimeout 0))
      else .ok (o.budgeted base) := by
  rw [usableConfig_eq h, h.limitError?_budgeted]
  by_cases hzero : o.timeout = some 0 <;> simp [hzero]

theorem usableConfig_of_unloadable {e : ConfigError} (hnamed : o.config = some path)
    (hload : Config.ofFile path (read path) = .error e) :
    o.usableConfig read = .error (.unloadable path e) := by
  simp only [usableConfig, hnamed, hload]
  rfl

theorem usableConfig_of_nothing (hunnamed : o.config = none) (hnone : o.timeout = none) :
    o.usableConfig read = .error .noBudget := by
  simp only [usableConfig, hunnamed, hnone]
  rfl

theorem exists_startsFrom (h : o.usableConfig read = .ok config) :
    ∃ base, o.StartsFrom read base := by
  cases hnamed : o.config with
  | some path =>
      cases hload : Config.ofFile path (read path) with
      | ok base => exact ⟨base, .file hnamed hload⟩
      | error e =>
          rw [usableConfig_of_unloadable hnamed hload] at h
          cases h
  | none =>
      cases hgiven : o.timeout with
      | some timeout => exact ⟨_, .budget hnamed hgiven⟩
      | none =>
          rw [usableConfig_of_nothing hnamed hgiven] at h
          cases h

theorem usableConfig_usable (h : o.usableConfig read = .ok config) :
    config.limitError? = none := by
  obtain ⟨base, hbase⟩ := exists_startsFrom h
  rw [usableConfig_eq hbase] at h
  split at h
  · cases h
  · next hnone => exact Except.ok.inj h ▸ hnone

end Options

theorem exists_job (hconfig : config.limitError? = none) :
    ∃ job, Job.ofConfig o config = .ok job ∧
      Sandbox.SameTask ((config.sandbox o.program).pushInput o.input) job.sandbox ∧
      job.sandbox.session.timeout = (config.sandbox o.program).session.timeout := by
  simp only [Job.ofConfig, Config.ofConfig_eq_ok hconfig]
  refine ⟨_, rfl, ?_⟩
  by_cases hverbose : o.verbose
  · simp only [hverbose, ↓reduceIte]
    exact ⟨⟨rfl, rfl, rfl⟩, rfl⟩
  · simp only [hverbose, Bool.false_eq_true, ↓reduceIte]
    exact ⟨⟨rfl, rfl, rfl⟩, rfl⟩

theorem Given.take_config (hpath : path ≠ "") :
    nothing.take ("--config=" ++ path) = .ok (some { nothing with config := some path }) := by
  have hname : ValueOption.ofName? "config" = some .config := by decide
  have hset : nothing.set .config path = .ok { nothing with config := some path } := by
    simp [Given.set, nothing, hpath]
  have htake : nothing.take ("--config=" ++ path) = some <$> nothing.set .config path := by
    simp [take, nothing, takeLong, hname]
    rfl
  rw [htake, hset]
  rfl

/-- Every program can be given on a command line, also one that looks like an option. -/
theorem exists_arguments (program : String) (hpath : path ≠ "") (verbose : Bool) :
    ∃ arguments,
      Request.ofArguments arguments = .ok (.run ⟨program, some path, none, "", verbose⟩) := by
  have hconfig := Given.take_config hpath
  cases verbose with
  | false =>
      refine ⟨["--config=" ++ path, "--", program], ?_⟩
      simp only [Request.ofArguments, Given.takeAll, hconfig]
      rfl
  | true =>
      refine ⟨["--config=" ++ path, "--verbose", "--", program], ?_⟩
      simp only [Request.ofArguments, Given.takeAll, hconfig]
      rfl

namespace Plan

theorem ofArguments_of_error {e : SetupError}
    (hparse : Request.ofArguments arguments = .ok (.run o)) (h : o.usableConfig read = .error e) :
    ofArguments read arguments = .respond ⟨1, "", e.report⟩ := by
  simp [ofArguments, hparse, h, Except.bind]

/-- With a usable config the program is run on the input, verbose or not, and the report is all that
is printed. -/
theorem carryOut_of_usableConfig (hparse : Request.ofArguments arguments = .ok (.run o))
    (h : o.usableConfig read = .ok config) (bound : Nat) (clock : σ) :
    ((ofArguments read arguments).carryOut bound clock).map
        (fun response => (response.exitCode, response.output)) =
      (((config.sandbox o.program).pushInput o.input).outcome? bound clock).map
        fun outcome => (0, outcome.render ++ "\n") := by
  obtain ⟨job, hjob, htask, htimeout⟩ := exists_job (o := o) (Options.usableConfig_usable h)
  have hplan : ofArguments read arguments = .run job := by
    simp [ofArguments, hparse, h, Except.bind, hjob]
  have houtcome : job.sandbox.outcome? bound clock =
      ((config.sandbox o.program).pushInput o.input).outcome? bound clock :=
    htask.outcome?_eq htimeout fun _ => rfl
  rw [hplan, ← houtcome, carryOut, Sandbox.outcome?, Option.map_map, Option.map_map]
  rfl

end Plan

end Runner

namespace Chat

open Runner

variable {σ τ : Type} [Clock σ] [Clock τ]

/-- What the runner prints for a program that it is given with the config of a command, no input and
no budget, is what the command answers to a message with that program as its first word. -/
theorem Handler.runner_agrees {h : Handler} (hconfig : h.config.limitError? = none) {clock₁ : σ}
    {clock₂ : τ} (hreadings : ∀ n, Clock.readings clock₂ n = Clock.readings clock₁ n)
    {args before word after : String} (hword : FirstWord args before word after)
    {read : String → Except ReadError String} {path : String} {arguments : List String}
    {verbose : Bool} (hload : Config.ofFile path (read path) = .ok h.config)
    (hparse : Request.ofArguments arguments = .ok (.run ⟨word, some path, none, "", verbose⟩))
    (bound : Nat) (origin : Origin) :
    ((Plan.ofArguments read arguments).carryOut bound clock₂).map
        (fun response => (response.exitCode, response.output)) =
      (h.handle bound clock₁ args origin).map fun answer => (0, answer.1.text ++ "\n") := by
  let o : Options := ⟨word, some path, none, "", verbose⟩
  have husable : o.usableConfig read = .ok h.config :=
    Options.usableConfig_of_startsFrom (.file rfl hload)
  have hinput : (h.config.sandbox word).pushInput "" = h.config.sandbox word := rfl
  have htext := congrArg (Option.map fun text => ((0 : UInt8), text ++ "\n"))
    (Handler.text_of_word hconfig hword bound clock₁ origin)
  rw [Option.map_map, Option.map_map] at htext
  rw [Plan.carryOut_of_usableConfig hparse husable bound clock₂, hinput,
    Sandbox.outcome?_congr hreadings]
  exact htext.symm

/-- The chat command and the runner agree. A message of blanks is answered with the usage line, to
the caller even in a channel. Any other message is blanks, a word and a rest; the reply goes where
the message came from, is the same for all blanks and rests, and is what the runner prints, up to a
newline, if it is given the word as its program, a file with the config of the command, no input and
no budget. In general the runner runs its program under the config that it starts from, with the
budget of the command line put in; if there is none to start from, or the budget is nothing, it
prints nothing and exits with code one. -/
theorem chat_and_runner_agree {h : Handler} (hconfig : h.config.limitError? = none) {clock₁ : σ}
    {clock₂ : τ} (hreadings : ∀ n, Clock.readings clock₂ n = Clock.readings clock₁ n) :
    (∀ args, (∀ c ∈ args.toList, isBlank c = true) → ∀ bound origin,
      h.handle bound clock₁ args origin = some (⟨.caller origin.caller,
        "Usage: " ++ h.commandPrefix ++ "bf <brainfuck program>"⟩, [])) ∧
    (∀ args, (∃ c ∈ args.toList, isBlank c = false) →
      ∃ before word after, FirstWord args before word after) ∧
    (∀ args before word after, FirstWord args before word after → ∀ bound origin,
      (∀ reply log, h.handle bound clock₁ args origin = some (reply, log) →
        reply.target = origin.target) ∧
      (∀ args' before' after' origin', FirstWord args' before' word after' →
        (h.handle bound clock₁ args' origin').map (fun answer => answer.1.text) =
          (h.handle bound clock₁ args origin).map (fun answer => answer.1.text)) ∧
      (∀ path verbose, path ≠ "" → ∃ arguments,
        Request.ofArguments arguments = .ok (.run ⟨word, some path, none, "", verbose⟩)) ∧
      ∀ read path arguments verbose, Config.ofFile path (read path) = .ok h.config →
        Request.ofArguments arguments = .ok (.run ⟨word, some path, none, "", verbose⟩) →
          ((Plan.ofArguments read arguments).carryOut bound clock₂).map
              (fun response => (response.exitCode, response.output)) =
            (h.handle bound clock₁ args origin).map fun answer => (0, answer.1.text ++ "\n")) ∧
    ∀ read arguments o, Request.ofArguments arguments = .ok (.run o) →
      (∀ base, o.StartsFrom read base → o.usableConfig read =
        if o.timeout = some 0 then .error (.outOfRange (.invalidTimeout 0))
        else .ok { base with timeout := o.timeout.getD base.timeout }) ∧
      (∀ path e, o.config = some path → Config.ofFile path (read path) = .error e →
        o.usableConfig read = .error (.unloadable path e)) ∧
      (o.config = none → o.timeout = none → o.usableConfig read = .error .noBudget) ∧
      (∀ e, o.usableConfig read = .error e →
        Plan.ofArguments read arguments = .respond ⟨1, "", e.report⟩) ∧
      ∀ config, o.usableConfig read = .ok config → ∀ bound,
        ((Plan.ofArguments read arguments).carryOut bound clock₂).map
            (fun response => (response.exitCode, response.output)) =
          (((config.sandbox o.program).pushInput o.input).outcome? bound clock₂).map
            fun outcome => (0, outcome.render ++ "\n") := by
  refine ⟨?_, fun _ => exists_firstWord_of_not_blank, ?_, ?_⟩
  · intro args hblank bound origin
    rw [Handler.handle_of_blank hblank, Handler.usage_eq]
  · intro args before word after hword bound origin
    have hreply := Handler.reply_of_word hconfig hword bound clock₁ origin
    refine ⟨?_, ?_, fun _ verbose hpath => exists_arguments word hpath verbose, ?_⟩
    · intro reply log hanswer
      rw [hanswer, Option.map_some] at hreply
      obtain ⟨outcome, -, houtcome⟩ := Option.map_eq_some_iff.mp hreply.symm
      exact congrArg Reply.target houtcome.symm
    · intro args' before' after' origin' hword'
      rw [Handler.text_of_word hconfig hword', Handler.text_of_word hconfig hword]
    · exact fun _ _ _ _ hload hparse =>
        Handler.runner_agrees hconfig hreadings hword hload hparse bound origin
  · intro read arguments o hparse
    exact ⟨fun _ => Options.usableConfig_of_startsFrom,
      fun _ _ => Options.usableConfig_of_unloadable, Options.usableConfig_of_nothing,
      fun _ => Plan.ofArguments_of_error hparse,
      fun _ husable bound => Plan.carryOut_of_usableConfig hparse husable bound clock₂⟩

/-- A loop between blanks that are more than spaces, answered in a channel and run by the runner. -/
theorem chat_and_runner_agree_on_loop :
    let h : Handler := ⟨⟨100, 16, none⟩, none, "!"⟩
    let clock := SteppingClock.perMillisecond
    let args := "\u00A0 ++[-]+++.\u2003[["
    let origin : Origin := .channel "#bots" "alice"
    let read : String → Except ReadError String := fun _ => .ok "timeout: 100\n"
    let arguments := ["--config", "bf.yml", "-v", "++[-]+++."]
    h.config.limitError? = none ∧ FirstWord args "\u00A0 " "++[-]+++." "\u2003[[" ∧
      Config.ofFile "bf.yml" (read "bf.yml") = .ok h.config ∧
      Request.ofArguments arguments =
        .ok (.run ⟨"++[-]+++.", some "bf.yml", none, "", true⟩) ∧
      (h.handle 20 clock args origin).map (fun answer => answer.1) =
        some ⟨.channel "#bots", "RESULT | [3] \u0003"⟩ ∧
      ((Plan.ofArguments read arguments).carryOut 20 clock).map
          (fun response => (response.exitCode, response.output)) =
        some (0, "RESULT | [3] \u0003\n") ∧
      h.handle 20 clock "\u3000" origin =
        some (⟨.caller "alice", "Usage: !bf <brainfuck program>"⟩, []) := by
  intro h clock args origin read arguments
  have hconfig : h.config.limitError? = none := by decide
  have hword : FirstWord args "\u00A0 " "++[-]+++." "\u2003[[" := by
    constructor <;> simp [args, isBlank]
  have hload : Config.ofFile "bf.yml" (read "bf.yml") = .ok h.config := by decide +kernel
  have hparse : Request.ofArguments arguments =
      .ok (.run ⟨"++[-]+++.", some "bf.yml", none, "", true⟩) := by
    decide +kernel
  have hreply : (h.handle 20 clock args origin).map (fun answer => answer.1) =
      some ⟨.channel "#bots", "RESULT | [3] \u0003"⟩ := by
    decide +kernel
  obtain ⟨answer, hhandle, htext⟩ := Option.map_eq_some_iff.mp hreply
  have hreadings : ∀ n, Clock.readings clock n = Clock.readings clock n := fun _ => rfl
  obtain ⟨hblank, -, hanswer, -⟩ := chat_and_runner_agree hconfig hreadings
  obtain ⟨-, -, -, hrunner⟩ := hanswer _ _ _ _ hword 20 origin
  have hprinted := hrunner read "bf.yml" arguments true hload hparse
  refine ⟨hconfig, hword, hload, hparse, hreply, ?_, hblank "\u3000" (by simp [isBlank]) 20 origin⟩
  rw [hprinted, hhandle, Option.map_some, htext]
  rfl

end Chat

end TapeMachine
