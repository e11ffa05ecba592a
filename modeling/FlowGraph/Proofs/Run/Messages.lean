/-
What is read back of the messages of a run.

An output and an answer are written down for whoever started the run.  Where an output has no value
the field is left out, and where its value is `null` the field says so; but a reader of a field that
may be missing takes `null` for nothing.  So all of an output is read back but this one difference,
and all of an answer but the difference between no body and a body that is `null`, which is lost as
soon as the answer is written.  Blocks do give `null`, for one a block that looks for a variable
that is not there.
-/
import FlowGraph.Proofs.Json.Reads
import FlowGraph.Proofs.Run.Settled
import FlowGraph.Proofs.Run.Status

namespace FlowGraph

open Json Json.Reader Json.Record

/-! ### Fields that may be missing -/

namespace Json

/-- The value, unless it is `null`. -/
def something (v : Option Json) : Option Json := v.filter fun j => !j.isNull

theorem something_eq_self_iff {v : Option Json} : something v = v ↔ v ≠ some .null := by
  cases v with
  | none => simp [something]
  | some j => cases j <;> simp [something, isNull]

/-- An option takes `null` for nothing, though it may be asked for any value. -/
theorem takes_something {v : Option Json} (h : ∀ j ∈ v, j.Legal) :
    json.option.Takes (v.getD .null) (something v) := by
  cases v with
  | none => exact takes_none json
  | some j =>
      cases hnull : j.isNull with
      | true =>
          obtain rfl : j = .null := by cases j <;> first | rfl | cases hnull
          exact takes_none json
      | false =>
          have hkept : something (some j) = some j := by simp [something, hnull]
          rw [hkept]
          exact (takes_json (h j rfl)).option fun heq => by simp [heq, isNull] at hnull

end Json

namespace Json.Record

variable {α : Type} {fields : List (String × Json)} {name : String} {r : Reader α} {v : Option Json}
  {o : Option α}

/-- A field that is left out stands for `null`. -/
theorem takes_optional (hnodup : (Entries.keys fields).Nodup)
    (hfind : Entries.find? name fields = v) (h : r.option.Takes (v.getD .null) o)
    (hnone : v = none → o = none) :
    Takes (withDefault name r.option none) (Entries.ofList fields) o := by
  cases v with
  | none =>
      rw [hnone rfl]
      exact takes_unwritten (Or.inr rfl) hnodup hfind
  | some j => exact takes_written h hnodup hfind

end Json.Record

theorem takes_text (s : Option String) : string.option.Takes ((s.map Json.str).getD .null) s := by
  cases s with
  | none => exact takes_none string
  | some s => exact (takes_string s).option fun hnull => by cases hnull

/-! ### Outputs -/

namespace Output

/-- The output without a value that is `null`. -/
def received (o : Output) : Output := { o with output := something o.output }

theorem takes_toJson {o : Output} (h : ∀ j ∈ o.output, j.Legal) :
    reader.Takes o.toJson o.received := by
  obtain ⟨successful, continueIfFail, next, output, error⟩ := o
  let fields := [("successful", Json.bool successful), ("continueIfFail", Json.bool continueIfFail)]
    ++ optional "next" (next.map Json.str) ++ optional "output" output
    ++ optional "error" (error.map Json.str)
  have hnames : (Entries.keys fields).Nodup := by
    cases next <;> cases output <;> cases error <;> simp [fields, optional, Entries.keys]
  refine Takes.object (Takes.seq (Takes.seq (Takes.seq (Takes.seq (Takes.map Output.mk ?_) ?_) ?_)
    ?_) ?_) "BlockOutput"
  · exact takes_written (takes_boolean successful) hnames rfl
  · exact takes_written (takes_boolean continueIfFail) hnames rfl
  · have hfind : Entries.find? "next" fields = next.map Json.str := by
      cases next <;> cases output <;> cases error <;> rfl
    exact takes_optional hnames hfind (takes_text next) (by simp)
  · have hfind : Entries.find? "output" fields = output := by
      cases next <;> cases output <;> cases error <;> rfl
    exact takes_optional hnames hfind (takes_something h) (by rintro rfl; rfl)
  · have hfind : Entries.find? "error" fields = error.map Json.str := by
      cases next <;> cases output <;> cases error <;> rfl
    exact takes_optional hnames hfind (takes_text error) (by simp)

theorem received_eq_self_iff {o : Output} : o.received = o ↔ o.output ≠ some .null := by
  rw [← something_eq_self_iff]
  exact ⟨fun h => congrArg Output.output h, fun h => by rw [received, h]⟩

theorem toJson_legal {o : Output} (h : ∀ j ∈ o.output, j.Legal) : o.toJson.Legal := by
  obtain ⟨successful, continueIfFail, next, output, error⟩ := o
  refine Legal.object ?_
  cases next <;> cases output <;> cases error <;> simp_all [optional, Legal]

/-- **What is read back of an output**, if the value that stands for it is read back. -/
theorem readText_toJson {o : Output} (h : parse nestingLimit o.toJson.compact = .ok o.toJson) :
    readText reader o.toJson.compact = .ok o.received := by
  obtain ⟨hlegal, hdepth⟩ := parse_legal h
  refine (takes_toJson fun j hj => ?_).readText hlegal hdepth
  obtain ⟨successful, continueIfFail, next, output, error⟩ := o
  obtain rfl : output = some j := hj
  refine @Legal.field _ "output" j hlegal ?_ ?_
  · cases next <;> cases error <;> simp [optional, Entries.keys]
  · cases next <;> cases error <;> rfl

end Output

/-! ### Answers -/

theorem Cookie.takes_toJson {c : Cookie} (h : c.toJson.Legal) :
    Cookie.reader.Takes c.toJson c := by
  obtain ⟨value, options⟩ := c
  have hnames : ["value"].Nodup := by decide
  have hboth : ["value", "options"].Nodup := by decide
  rw [toJson] at h ⊢
  cases hnull : options.isNull with
  | true =>
      obtain rfl : options = .null := by cases options <;> first | rfl | cases hnull
      refine Takes.object (Takes.seq (Takes.map Cookie.mk ?_) ?_) "CookieSpec"
      · exact takes_written (takes_string value) hnames rfl
      · exact takes_unwritten (Or.inr rfl) hnames rfl
  | false =>
      rw [hnull] at h
      have hoptions : options.Legal := @Legal.field _ "options" _ h hboth rfl
      refine Takes.object (Takes.seq (Takes.map Cookie.mk ?_) ?_) "CookieSpec"
      · exact takes_written (takes_string value) hboth rfl
      · exact takes_written (takes_json hoptions) hboth rfl

namespace Response

/-- The answer without a body that is `null`. -/
def received (r : Response) : Response := { r with body := something r.body }

theorem received_eq_self_iff {r : Response} : r.received = r ↔ r.body ≠ some .null := by
  rw [← something_eq_self_iff]
  exact ⟨fun h => congrArg Response.body h, fun h => by rw [received, h]⟩

theorem takes_status {status : Option Nat} (h : ∀ n ∈ status, n ≤ maxStatus) :
    (natural "u16" maxStatus).option.Takes ((status.map Json.nat).getD .null) status := by
  cases status with
  | none => exact takes_none _
  | some n => exact (takes_natural "u16" (h n rfl)).option fun hnull => by cases hnull

theorem takes_toJson {r : Response} (h : r.toJson.Legal) (hstatus : ∀ n ∈ r.status, n ≤ maxStatus) :
    reader.Takes r.toJson r.received := by
  have hnames : ["status", "headers", "cookies", "body"].Nodup := by decide
  obtain ⟨hheaders, -⟩ : (textsToJson r.headers).Legal := @Legal.field _ "headers" _ h hnames rfl
  obtain ⟨hcookies, hcookie⟩ : (Json.obj (Entries.mapValues Cookie.toJson r.cookies)).Legal :=
    @Legal.field _ "cookies" _ h hnames rfl
  have hbody : (r.body.getD .null).Legal := @Legal.field _ "body" _ h hnames rfl
  refine Takes.object (Takes.seq (Takes.seq (Takes.seq (Takes.map Response.mk ?_) ?_) ?_) ?_)
    "ResponseState"
  · exact takes_written (takes_status hstatus) hnames rfl
  · exact takes_written (takes_table (Entries.sorted_mapValues.mp hheaders)
      fun e _ => takes_string e.2) hnames rfl
  · refine takes_written (takes_table (Entries.sorted_mapValues.mp hcookies) fun e he => ?_)
      hnames rfl
    exact Cookie.takes_toJson (legalFields_iff.mp hcookie _ (List.mem_map_of_mem he))
  · exact takes_written (takes_something fun j hj => by simpa [Option.mem_def.mp hj] using hbody)
      hnames rfl

theorem readText_toJson {r : Response} (hstatus : ∀ n ∈ r.status, n ≤ maxStatus)
    (h : parse nestingLimit r.toJson.compact = .ok r.toJson) :
    readText reader r.toJson.compact = .ok r.received := by
  obtain ⟨hlegal, hdepth⟩ := parse_legal h
  exact (takes_toJson hlegal hstatus).readText hlegal hdepth

end Response

/-! ### The messages of a run -/

namespace Program

variable {δ χ : Type} [Store.Database δ] [Client χ]

/-- A status that has been recorded can be written down, if it could be before the run. -/
theorem status_le {p : Program} {params : Json} {ctx now : Context δ χ} {outer : List (Visit δ χ)}
    {s : Outset δ χ} (hctx : ∀ n ∈ ctx.response.status, n ≤ Response.maxStatus)
    (hstarts : Starts (p.outset params ctx) outer s) (hnow : s.Passes now) :
    ∀ n ∈ now.response.status, n ≤ Response.maxStatus := by
  have hdoes : p.blocks.Does (Task.Answers fun n => n ≤ Response.maxStatus) := by
    intro _ _ _ _ id b _
    cases b with
    | task id next t =>
        cases t with
        | response c => exact fun n hrecords => hrecords.1
        | _ => exact trivial
    | _ => exact trivial
  obtain ⟨hstarted, hlast⟩ := hstarts.answered hdoes
  rcases hstarted.trans (hnow.answered hlast) with hsame | ⟨n, hn, hle⟩
  · rw [hsame]
    exact hctx
  · intro m hm
    obtain rfl := Option.some.inj (hn.symm.trans hm)
    exact hle

/-- **What is read back of the messages of a run.**  If the values that stand for them are read
back from their texts, then so is every output that a block gives, but a success with `null` for
its value comes back without a value, and so is the answer as it is at any moment of a run, but a
body that is `null` comes back as none. -/
theorem messages_read :
    (∀ (b : Block) (fuel : Nat) (params : Json) (ctx ctx' : Context δ χ) (o : Output),
      b.execute fuel params ctx = some (.ok o, ctx') →
      parse nestingLimit o.toJson.compact = .ok o.toJson →
        readText Output.reader o.toJson.compact = .ok o.received ∧
          (o.received = o ↔ ∀ next, o ≠ .success next .null)) ∧
    ∀ (p : Program) (params : Json) (ctx : Context δ χ),
      (∀ n ∈ ctx.response.status, n ≤ Response.maxStatus) →
      ∀ outer s now, Starts (p.outset params ctx) outer s → s.Passes now →
        parse nestingLimit now.response.toJson.compact = .ok now.response.toJson →
          readText Response.reader now.response.toJson.compact = .ok now.response.received ∧
            (now.response.received = now.response ↔ now.response.body ≠ some .null) := by
  constructor
  · intro b fuel params ctx ctx' o hexecute hparse
    refine ⟨Output.readText_toJson hparse, Output.received_eq_self_iff.trans ?_⟩
    obtain ⟨next, hsettled⟩ := Block.execute_settled hexecute
    cases hsettled with
    | success v => simp [Output.success]
    | failure text => simp [Output.success, Output.failure]
  · intro p params ctx hctx outer s now hstarts hnow hparse
    exact ⟨Response.readText_toJson (status_le hctx hstarts hnow) hparse,
      Response.received_eq_self_iff⟩

/-- A program that looks for a variable and answers with nothing. -/
def silent : Program :=
  ⟨[("in", .task "in" (some "look") .entrypoint),
    ("look", .task "look" (some "out") (.getVar ⟨"n"⟩)),
    ("out", .task "out" none (.response ⟨none, .null, false⟩))], "in"⟩

end Program

/-- A context without variables. -/
def Context.silent : Context Store.Memory Offline := { scripts := ⟨fun _ _ _ => .done (.ok .null)⟩ }

namespace Program

/-- What its blocks give, and what its answer is in the end. -/
theorem silent_run :
    (Block.task "look" (some "out") (.getVar ⟨"n"⟩)).execute 1 .null Context.silent
      = some (.ok (.success (some "out") .null), Context.silent) ∧
    ∃ now r, (silent.outset .null Context.silent).Ends r now ∧
      now.response = ⟨none, [], [], some .null⟩ :=
  ⟨rfl, _, _, ⟨3, rfl⟩, rfl⟩

theorem messages_read_silent :
    (∃ o ctx', (Block.task "look" (some "out") (.getVar ⟨"n"⟩)).execute 1 .null Context.silent
        = some (.ok o, ctx') ∧
      readText Output.reader o.toJson.compact = .ok ⟨true, true, some "out", none, none⟩) ∧
    ∃ now, (silent.outset .null Context.silent).Passes now ∧ now.response.body = some .null ∧
      readText Response.reader now.response.toJson.compact = .ok {} := by
  obtain ⟨hexecute, now, r, hends, hresponse⟩ := silent_run
  constructor
  · have hlegal : (Output.success (some "out") .null).toJson.Legal :=
      Output.toJson_legal fun j hj => Option.some.inj hj ▸ trivial
    have hread := (messages_read.1 _ 1 _ _ _ _ hexecute (parse_compact hlegal (by decide))).1
    exact ⟨_, _, hexecute, hread⟩
  · have hlegal : now.response.toJson.Legal := by
      rw [hresponse]
      refine Legal.object ?_
      simp [textsToJson, Entries.mapValues, Legal, LegalFields, Entries.Sorted.nil]
    have hparse : parse nestingLimit now.response.toJson.compact = .ok now.response.toJson :=
      parse_compact hlegal (by rw [hresponse]; decide)
    have hread := (messages_read.2 silent .null .silent (by decide) _ _ now .self (.finished hends)
      hparse).1
    refine ⟨now, .finished hends, by rw [hresponse], hread.trans ?_⟩
    rw [hresponse]
    rfl

/-- The output of a block that looks for a variable that is not there is not read back. -/
theorem messages_read_not_all :
    ∃ o : Output, (Block.task "look" (some "out") (.getVar ⟨"n"⟩)).execute 1 .null Context.silent
        = some (.ok o, Context.silent) ∧
      parse nestingLimit o.toJson.compact = .ok o.toJson ∧
      readText Output.reader o.toJson.compact ≠ .ok o := by
  have hlegal : (Output.success (some "out") .null).toJson.Legal :=
    Output.toJson_legal fun j hj => Option.some.inj hj ▸ trivial
  have hparse := parse_compact hlegal (show _ ≤ nestingLimit by decide)
  refine ⟨_, silent_run.1, hparse, fun hread => ?_⟩
  have hsame := Except.ok.inj ((Output.readText_toJson hparse).symm.trans hread)
  exact Output.received_eq_self_iff.mp hsame rfl

end Program

end FlowGraph
