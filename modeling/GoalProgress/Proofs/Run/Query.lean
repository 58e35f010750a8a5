import GoalProgress.Proofs.Response
import GoalProgress.Proofs.Run
import GoalProgress.Proofs.Run.Statistics

/-!
# Queries are all or nothing

A run that renders challenges, renders a goal or shows statistics only reads files. What it shows is
computed as a whole from what the files hold, and only then given out, so a run that fails at any
point gives out nothing but the error, with the exit code of its kind.

## Main definitions

* `Request.answer`: what is shown of documents and progress, by their contents alone.
* `FileTree.answer`: what a tree of files answers to a request.
* `Error.NotFound`, `Error.BadInput`: the errors with exit codes of their own.
-/
namespace GoalProgress

open Files (FileTree)

/-! ## Kinds of errors -/

namespace Error

/-- Something that was asked for does not exist. -/
inductive NotFound : Error → Prop
  | challenge (id : String) : NotFound (.challengeNotFound id)
  | goal (id : String) : NotFound (.goalNotFound id)

/-- The configuration, the arguments or a file have to be changed. -/
inductive BadInput : Error → Prop
  | config (fault : ConfigFault) (path : Option String) : BadInput (.config fault path)
  | argument (fault : ArgumentFault) : BadInput (.argument fault)
  | json (path : String) (problem : Json.Problem) : BadInput (.json path problem)
  | invalidDocument (id : String) (fault : DocumentFault) : BadInput (.invalidDocument id fault)

/-- An error ends the program with the exit code of its kind, and it is of one kind only. -/
theorem exitCode_cases (e : Error) :
    (e.NotFound ∧ ¬ e.BadInput) ∧ e.exitCode = 1 ∨ (¬ e.NotFound ∧ e.BadInput) ∧ e.exitCode = 2 ∨
      (¬ e.NotFound ∧ ¬ e.BadInput) ∧ e.exitCode = 3 := by
  cases e with
  | challengeNotFound id => exact .inl ⟨⟨.challenge id, nofun⟩, rfl⟩
  | goalNotFound id => exact .inl ⟨⟨.goal id, nofun⟩, rfl⟩
  | config fault path => exact .inr (.inl ⟨⟨nofun, .config fault path⟩, rfl⟩)
  | argument fault => exact .inr (.inl ⟨⟨nofun, .argument fault⟩, rfl⟩)
  | json path problem => exact .inr (.inl ⟨⟨nofun, .json path problem⟩, rfl⟩)
  | invalidDocument id fault => exact .inr (.inl ⟨⟨nofun, .invalidDocument id fault⟩, rfl⟩)
  | cacheUnavailable => exact .inr (.inr ⟨⟨nofun, nofun⟩, rfl⟩)
  | malformedGoals fault => exact .inr (.inr ⟨⟨nofun, nofun⟩, rfl⟩)
  | goalIdExtraction ordinal cause => exact .inr (.inr ⟨⟨nofun, nofun⟩, rfl⟩)
  | io path problem => exact .inr (.inr ⟨⟨nofun, nofun⟩, rfl⟩)
  | snapshot fault => exact .inr (.inr ⟨⟨nofun, nofun⟩, rfl⟩)
  | internal text => exact .inr (.inr ⟨⟨nofun, nofun⟩, rfl⟩)

/-- The exit code tells the kind of the error. -/
theorem exitCode_iff (e : Error) :
    (e.exitCode = 1 ↔ e.NotFound) ∧ (e.exitCode = 2 ↔ e.BadInput) ∧
      (e.exitCode = 3 ↔ ¬ e.NotFound ∧ ¬ e.BadInput) := by
  obtain ⟨⟨hfound, hinput⟩, hcode⟩ | ⟨⟨hfound, hinput⟩, hcode⟩ | ⟨⟨hfound, hinput⟩, hcode⟩ :=
    e.exitCode_cases <;> simp [hfound, hinput, hcode]

end Error

/-- The last thing that is said is the error. -/
theorem Outcome.getLast?_messages {o : Outcome} {e : Error} (h : o.failure = some e) :
    o.messages.getLast? = some ("goalsplice: " ++ e.message) := by
  rw [messages, h]
  simp

/-! ## Answers -/

/-- The progress file that a request names. -/
def Request.progress? : Request → Option String
  | .render _ progress _ | .goal _ progress => progress
  | .stats _ => none

/-- What is shown of documents and progress in answer to a request, by the documents alone: a whole
document and a line feed, or all of the statistics. -/
def Request.answer (cache : Cache) (lookup : Lookup) : Request → Except Error Bytes
  | .render ids _ false =>
    (ResponseBuilder.respond (some cache.challengeDocument?) ids lookup).map (· ++ [Byte.lineFeed])
  | .render [id] _ true =>
    match cache.challengeDocument? id with
    | some doc => (Splice.challenge doc lookup).map (· ++ [Byte.lineFeed])
    | none => .error (.challengeNotFound id)
  | .render _ _ true => .error (.argument .notOneChallenge)
  | .goal id _ =>
    match cache.goalDocument? id with
    | some doc => .ok (Splice.goal doc (lookup.get? id) ++ [Byte.lineFeed])
    | none => .error (.goalNotFound id)
  | .stats format => .ok (cache.report format)

/-- What a tree of files answers to a request, or the first error on the way there. -/
def Files.FileTree.answer (t : FileTree) (source : SourceArguments) (request : Request)
    (config : Config) : Except Error Bytes := do
  let cache ← t.cache source config
  let lookup ← t.records request.progress?
  request.answer cache lookup

section Documents

variable (cache : Cache) (config : Config) (lookup : Lookup) (progress : Option String)

/-- What is rendered is what the documents say, whatever allowances are configured. -/
theorem answer_render (ids : List String) (single : Bool) :
    Request.answer cache lookup (.render ids progress single) =
      ((cache.responses config).render ids single lookup).map (· ++ [Byte.lineFeed]) := by
  cases single with
  | false =>
    simp only [ResponseBuilder.render, ResponseBuilder.challenges_eq_respond]
    rfl
  | true =>
    obtain _ | ⟨id, _ | ⟨other, ids⟩⟩ := ids
    · rfl
    · simp only [Request.answer, ResponseBuilder.render, if_true, ResponseBuilder.challenge_eq,
        Cache.responses, Cache.store]
      cases cache.challengeDocument? id <;> rfl
    · rfl

theorem answer_goal (id : String) :
    Request.answer cache lookup (.goal id progress) =
      ((cache.responses config).goal id (lookup.get? id)).map (· ++ [Byte.lineFeed]) := by
  simp only [Request.answer, ResponseBuilder.goal, ResponseBuilder.store, Cache.responses,
    Cache.store, bind, Except.bind]
  cases cache.goalDocument? id <;> rfl

end Documents

theorem run_loadProgress (path? : Option String) (t : FileTree) :
    (loadProgress path? : FileM Lookup).run.run t = (t.records path?, t) := by
  cases path? with
  | none => rfl
  | some path => exact Lookup.run_load path t

namespace Request

/-- **A request is answered from the files as they are**, and leaves them so. -/
theorem run_execute (source : SourceArguments) (request : Request) (config : Config)
    (t : FileTree) :
    ((request.command source).execute config : FileM Report).run.run t =
      ((fun output => { output := output }) <$> t.answer source request config, t) := by
  rw [FileTree.answer, map_bind]
  cases request with
  | render ids progress single =>
    refine run_bind_of_eq (source.run_load config t) fun cache => ?_
    rw [map_bind]
    refine run_bind_of_eq (run_loadProgress progress t) fun lookup => ?_
    rw [run_bind, run_ofExcept, answer_render cache config]
    cases (cache.responses config).render ids single lookup <;> rfl
  | goal id progress =>
    refine run_bind_of_eq (source.run_load config t) fun cache => ?_
    rw [map_bind]
    refine run_bind_of_eq (run_loadProgress progress t) fun lookup => ?_
    rw [run_bind, run_ofExcept, answer_goal cache config]
    cases (cache.responses config).goal id (lookup.get? id) <;> rfl
  | stats format =>
    refine run_bind_of_eq (source.run_load config t) fun cache => ?_
    rw [cache.print_stats]
    rfl

/-- What is said of the configuration in the course of a request. -/
def notices (t : FileTree) (config? : Option String) (directory : String) : List Notice :=
  (t.config config? directory).unrecognized.map .unrecognized

/-- **A request either succeeds as a whole or fails with nothing shown.** -/
theorem run_command (source : SourceArguments) (request : Request) (config? : Option String)
    (directory : String) (t : FileTree) :
    ((request.command source).run config? directory : StateM FileTree Outcome).run t =
      (match (t.config config? directory).result >>= t.answer source request with
        | .error e => { notices := notices t config? directory, failure := some e }
        | .ok output => { output := output, notices := notices t config? directory }, t) := by
  rw [Command.run_eq]
  cases (t.config config? directory).result with
  | error e => rfl
  | ok config =>
    have hanswer : (Except.ok config >>= t.answer source request) =
        t.answer source request config := rfl
    simp only [run_execute, hanswer]
    cases t.answer source request config with
    | error e => rfl
    | ok output =>
      have hreport : ((fun output => { output := output }) <$> Except.ok output :
          Except Error Report) = .ok { output := output } := rfl
      simp only [hreport, List.append_nil, notices]

end Request

/-- **Queries are all or nothing.** A run that is asked to render challenges, to render a goal or to
show statistics leaves all files as they are. If the configuration and the answer to the request can
be computed from the files, it exits with 0, has no error, and gives out the answer as a whole. If
not, it gives out nothing, and the last thing that it says is the first error on the way; it exits
with 1 exactly if something asked for does not exist, with 2 exactly if the input has to be changed,
and with 3 otherwise. -/
theorem query_all_or_nothing {configDefault config? : Option String} {args : List String}
    {source : SourceArguments} {request : Request}
    (h : Arguments.read configDefault args = .ok ⟨config?, some (request.command source)⟩)
    (directory : String) (t : FileTree) :
    ∃ outcome, t.runProgram configDefault args directory = (.finished outcome, t) ∧
      match (t.config config? directory).result >>= t.answer source request with
      | .ok output => outcome.exitCode = 0 ∧ outcome.failure = none ∧ outcome.output = output
      | .error e =>
        outcome.output = [] ∧ outcome.failure = some e ∧
          outcome.messages.getLast? = some ("goalsplice: " ++ e.message) ∧
          (outcome.exitCode = 1 ↔ e.NotFound) ∧ (outcome.exitCode = 2 ↔ e.BadInput) ∧
          (outcome.exitCode = 3 ↔ ¬ e.NotFound ∧ ¬ e.BadInput) := by
  rw [runProgram_of_read h, request.run_command]
  refine ⟨_, rfl, ?_⟩
  cases (t.config config? directory).result >>= t.answer source request with
  | ok output => exact ⟨rfl, rfl, rfl⟩
  | error e => exact ⟨rfl, rfl, Outcome.getLast?_messages rfl, e.exitCode_iff⟩

/-- A directory with a snapshot, in which there is one challenge with one goal, and with a record of
the goal. -/
def Files.FileTree.withProgress : FileTree :=
  (FileTree.empty.put ["cache.bin"] (.file (Snapshot.encode {
    version := 1
    writer := "0.1.0"
    challenges := [⟨"c", Bytes.ofString
      "\x7b\"challengeId\":\"c\",\"goals\":[\x7b\"goalId\":\"g\"\x7d]\x7d", ["g"]⟩]
    goals := [("g", Bytes.ofString "\x7b\"goalId\":\"g\"\x7d")] }))).put ["progress.json"]
      (.file (Bytes.ofString
        "[\x7b\"goalId\":\"g\",\"progress\":3,\"status\":\"in_progress\"\x7d]"))

/-- What is rendered there of the challenge. -/
def renderedWithProgress : Bytes :=
  Bytes.ofString ("\x7b\"challenges\":[\x7b\"challengeId\":\"c\",\"goals\":[" ++
    "\x7b\"goalId\":\"g\",\"progress\":3,\"status\":\"in_progress\"," ++
    "\"completedAt\":\"\",\"claimedAt\":\"\"\x7d]\x7d]\x7d\n")

/-- What the statistics are there. -/
def statisticsWithProgress : Bytes :=
  Bytes.ofString
    "\x7b\n  \"challenges\": 1,\n  \"goals\": 1,\n  \"total_bytes\": 58\n\x7d\n"

/-- A challenge is rendered, the statistics are shown, and a challenge that does not exist is asked
for. -/
theorem query_all_or_nothing_withProgress :
    (∃ outcome, FileTree.withProgress.runProgram none
          ["render", "c", "--snapshot", "cache.bin", "-p", "progress.json"] "/work" =
          (.finished outcome, FileTree.withProgress) ∧
        outcome.exitCode = 0 ∧ outcome.output = renderedWithProgress) ∧
      (∃ outcome, FileTree.withProgress.runProgram none
          ["stats", "--snapshot", "cache.bin", "--output", "json"] "/work" =
          (.finished outcome, FileTree.withProgress) ∧
        outcome.exitCode = 0 ∧ outcome.output = statisticsWithProgress) ∧
      ∃ outcome, FileTree.withProgress.runProgram none
          ["render", "nope", "--snapshot", "cache.bin"] "/work" =
          (.finished outcome, FileTree.withProgress) ∧
        outcome.exitCode = 1 ∧ outcome.output = [] ∧
        outcome.messages.getLast? = some "goalsplice: challenge not found: nope" := by
  have hconfig (answer : Config → Except Error Bytes) :
      (FileTree.withProgress.config none "/work").result >>= answer = answer {} := rfl
  refine ⟨?rendered, ?shown, ?unknown⟩
  case rendered =>
    have hread : Arguments.read none
        ["render", "c", "--snapshot", "cache.bin", "-p", "progress.json"] = .ok ⟨none,
        some ((Request.render ["c"] (some "progress.json") false).command
          ⟨none, some "cache.bin"⟩)⟩ := rfl
    have hanswer : (FileTree.withProgress.answer ⟨none, some "cache.bin"⟩
        (.render ["c"] (some "progress.json") false) {}).toOption =
          some renderedWithProgress := by decide +kernel
    obtain ⟨outcome, hrun, h⟩ := query_all_or_nothing hread "/work" FileTree.withProgress
    rw [hconfig, toOption_eq_some_iff.1 hanswer] at h
    exact ⟨outcome, hrun, h.1, h.2.2⟩
  case shown =>
    have hread : Arguments.read none ["stats", "--snapshot", "cache.bin", "--output", "json"] =
        .ok ⟨none, some ((Request.stats .json).command ⟨none, some "cache.bin"⟩)⟩ := rfl
    have hanswer : (FileTree.withProgress.answer ⟨none, some "cache.bin"⟩
        (.stats .json) {}).toOption = some statisticsWithProgress := by decide +kernel
    obtain ⟨outcome, hrun, h⟩ := query_all_or_nothing hread "/work" FileTree.withProgress
    rw [hconfig, toOption_eq_some_iff.1 hanswer] at h
    exact ⟨outcome, hrun, h.1, h.2.2⟩
  case unknown =>
    have hread : Arguments.read none ["render", "nope", "--snapshot", "cache.bin"] = .ok ⟨none,
        some ((Request.render ["nope"] none false).command ⟨none, some "cache.bin"⟩)⟩ := rfl
    have hanswer : (match FileTree.withProgress.answer ⟨none, some "cache.bin"⟩
        (.render ["nope"] none false) {} with
      | .error (.challengeNotFound id) => id == "nope"
      | _ => false) = true := by decide +kernel
    split at hanswer
    · rename_i id hresult
      obtain rfl := eq_of_beq hanswer
      obtain ⟨outcome, hrun, h⟩ := query_all_or_nothing hread "/work" FileTree.withProgress
      rw [hconfig, hresult] at h
      obtain ⟨houtput, -, hlast, hfound, -, -⟩ := h
      exact ⟨outcome, hrun, hfound.2 (.challenge "nope"), houtput, hlast⟩
    · cases hanswer

end GoalProgress
