import Mathlib.Data.List.Forall2
import Mathlib.Logic.Relation
import PathMtu.Proofs.FaultStore
import PathMtu.Proofs.Splits

namespace PathMtu

theorem turnedInto_trans {α : Type} {turns : α → α → Prop} {first second third : List α}
    (h : List.Forall₂ (Relation.ReflTransGen turns) first second)
    (h' : List.Forall₂ (Relation.ReflTransGen turns) second third) :
    List.Forall₂ (Relation.ReflTransGen turns) first third := by
  induction h generalizing third with
  | nil => exact h'
  | cons hfirst _ ih =>
    obtain ⟨last, rest, hlast, hrest, rfl⟩ := List.forall₂_cons_left_iff.mp h'
    exact .cons (hfirst.trans hlast) (ih hrest)

namespace FaultLog

/-- Those who hear of a fault: everybody up to the first who raises, and the one who raises. -/
def hearers (fault : Fault) (callbacks : List Callback) : List Callback :=
  callbacks.take (callbacks.findIdx (·.raises fault) + 1)

theorem callUntilRaised_eq (fault : Fault) (callbacks : List Callback) :
    callUntilRaised fault callbacks =
      (hearers fault callbacks, (hearers fault callbacks).find? (·.raises fault)) := by
  unfold hearers
  induction callbacks with
  | nil => rfl
  | cons callback rest ih =>
    unfold callUntilRaised
    cases h : callback.raises fault with
    | true => simp [List.findIdx_cons, h]
    | false => simp [List.findIdx_cons, h, ih]

/-- What a report does when it is known whether faults are logged and who subscribed: it is logged,
then those who hear of it are called, and the one of them who raises raises it. -/
def announcement (logging : Bool) (fault : Fault) (subscribed : List Callback) : Dispatch :=
  { effects := (if logging then [.logged fault] else []) ++
      (hearers fault subscribed).map (.called · fault)
    raisedBy := (hearers fault subscribed).find? (·.raises fault) }

theorem dispatch_eq (log : FaultLog) (fault : Fault) :
    log.dispatch fault = announcement log.logging fault (log.registered fault.code) := by
  unfold dispatch announcement
  rw [callUntilRaised_eq]

/-- The log writes one line for a fault that is logged, before anybody is called. -/
theorem announcement_lines (logging : Bool) (fault : Fault) (subscribed : List Callback) :
    (announcement logging fault subscribed).lines =
      if logging then [Line.diagnostic s!"ERROR: {fault.describe}"] else [] := by
  have hcalls : ((hearers fault subscribed).map (ReportEffect.called · fault)).filterMap
      ReportEffect.line? = [] := by
    rw [List.filterMap_eq_nil_iff, List.forall_mem_map]
    exact fun _ _ => rfl
  unfold announcement Dispatch.lines
  rw [List.filterMap_append, hcalls, List.append_nil]
  cases logging <;> rfl

namespace Operation

/-- The callback that an operation subscribes to faults of a code. -/
def subscriber? (code : FaultCode) : Operation → Option Callback
  | .subscribe c callback => if c = code then some callback else none
  | _ => none

def switch? : Operation → Option Bool
  | .switchLogging enabled => some enabled
  | _ => none

end Operation

/-- Everybody who subscribed to faults of a code, in the order of subscription. -/
def subscribers (ops : List Operation) (code : FaultCode) : List Callback :=
  ops.filterMap (Operation.subscriber? code)

/-- Whether faults are logged after some operations. The latest switch counts; at first they are. -/
def logsAfter (ops : List Operation) : Bool :=
  (ops.filterMap Operation.switch?).getLast?.getD true

theorem subscribers_concat (ops : List Operation) (op : Operation) (code : FaultCode) :
    subscribers (ops ++ [op]) code = subscribers ops code ++ (op.subscriber? code).toList := by
  unfold subscribers
  rw [List.filterMap_append]
  cases h : op.subscriber? code <;> simp [h]

theorem logsAfter_concat (ops : List Operation) (op : Operation) :
    logsAfter (ops ++ [op]) = op.switch?.getD (logsAfter ops) := by
  unfold logsAfter
  rw [List.filterMap_append, List.getLast?_append]
  cases h : op.switch? <;> simp [h]

theorem perform_registered (log : FaultLog) (op : Operation) (code : FaultCode) :
    (log.perform op).1.registered code = log.registered code ++ (op.subscriber? code).toList := by
  cases op with
  | subscribe c callback =>
    show (List.filter _ (log.callbacks ++ [(c, callback)])).map Prod.snd = _
    rw [List.filter_append, List.map_append]
    refine congrArg (log.registered code ++ ·) ?_
    unfold Operation.subscriber?
    by_cases h : c = code <;> simp [h]
  | report fault => exact (List.append_nil _).symm
  | switchLogging enabled => exact (List.append_nil _).symm
  | clear => exact (List.append_nil _).symm

theorem perform_logging (log : FaultLog) (op : Operation) :
    (log.perform op).1.logging = op.switch?.getD log.logging := by
  cases op <;> rfl

/-- Operations on a log, and what each of them led to. A callback may keep a state of its own: from
one operation to the next it may turn into another, which then hears of the same code in its place.
A report calls each callback at most once, so this is also enough for callbacks that change each
other while they are told. -/
inductive Transcribed (turns : Callback → Callback → Prop) :
    List Operation → FaultLog → List (Option Dispatch) → Prop
  | start : Transcribed turns [] {} []
  | next {ops : List Operation} {log : FaultLog} {record : List (Option Dispatch)}
      (op : Operation) : Transcribed turns ops log record →
      Transcribed turns (ops ++ [op]) (log.perform op).1 (record ++ [(log.perform op).2])
  | turned {ops : List Operation} {log : FaultLog} {record : List (Option Dispatch)}
      {earlier later : List (FaultCode × Callback)} {code : FaultCode} {callback other : Callback} :
      Transcribed turns ops log record → log.callbacks = earlier ++ (code, callback) :: later →
      turns callback other →
      Transcribed turns ops { log with callbacks := earlier ++ (code, other) :: later } record

section

variable {turns : Callback → Callback → Prop} {ops : List Operation} {log : FaultLog}
  {record : List (Option Dispatch)}

theorem Transcribed.run (h : Transcribed turns ops log record) (more : List Operation) :
    Transcribed turns (ops ++ more) (log.run more).1 (record ++ (log.run more).2) := by
  induction more generalizing ops log record with
  | nil =>
    rw [List.append_nil]
    exact (List.append_nil record).symm ▸ h
  | cons op more ih =>
    rw [List.append_cons]
    show Transcribed turns _ ((log.perform op).1.run more).1
      (record ++ (log.perform op).2 :: ((log.perform op).1.run more).2)
    rw [List.append_cons record]
    exact ih (h.next op)

theorem Transcribed.length_eq (h : Transcribed turns ops log record) :
    record.length = ops.length := by
  induction h with
  | start => rfl
  | next op _ ih => rw [List.length_append, List.length_append, ih]; rfl
  | turned _ _ _ ih => exact ih

theorem registered_turned {earlier later : List (FaultCode × Callback)} {code : FaultCode}
    {callback other : Callback} (hlog : log.callbacks = earlier ++ (code, callback) :: later)
    (hturns : turns callback other) (about : FaultCode) :
    List.Forall₂ (Relation.ReflTransGen turns) (log.registered about)
      (registered { log with callbacks := earlier ++ (code, other) :: later } about) := by
  unfold registered
  rw [hlog]
  simp only [List.filter_append, List.map_append, List.filter_cons]
  refine List.rel_append (List.forall₂_refl _) ?_
  split
  · exact .cons (.single hturns) (List.forall₂_refl _)
  · exact List.forall₂_refl _

/-- The switch and the callbacks of a log are what the operations before made of them. -/
theorem Transcribed.wired (h : Transcribed turns ops log record) :
    log.logging = logsAfter ops ∧ ∀ code,
      List.Forall₂ (Relation.ReflTransGen turns) (subscribers ops code) (log.registered code) := by
  induction h with
  | start => exact ⟨rfl, fun _ => .nil⟩
  | @next ops log record op _ ih =>
    obtain ⟨hlogging, hregistered⟩ := ih
    refine ⟨?_, fun code => ?_⟩
    · rw [perform_logging, logsAfter_concat, hlogging]
    · rw [perform_registered, subscribers_concat]
      exact List.rel_append (hregistered code) (List.forall₂_refl _)
  | turned _ hlog hturns ih =>
    exact ⟨ih.1, fun code => turnedInto_trans (ih.2 code) (registered_turned hlog hturns code)⟩

/-- Each operation was performed on a log to which the operations before it lead. -/
theorem Transcribed.performed (h : Transcribed turns ops log record) {before later : List Operation}
    {op : Operation} (hops : ops = before ++ op :: later) :
    ∃ earlier past, Transcribed turns before earlier past ∧
      record[before.length]? = some (FaultLog.perform earlier op).2 := by
  induction h generalizing later with
  | start => exact absurd hops.symm (List.append_ne_nil_of_right_ne_nil _ (List.cons_ne_nil _ _))
  | @next ops log record last h ih =>
    rcases split_concat hops with ⟨rfl, rfl, rfl⟩ | ⟨since, rfl, rfl⟩
    · refine ⟨log, record, h, ?_⟩
      rw [← h.length_eq]
      exact List.getElem?_concat_length
    · obtain ⟨earlier, past, hpast, hget⟩ := ih rfl
      obtain ⟨hlt, _⟩ := List.getElem?_eq_some_iff.mp hget
      exact ⟨earlier, past, hpast, (List.getElem?_append_left hlt).trans hget⟩
  | turned _ _ _ ih => exact ih hops

end

/-- Each report is logged, in one line, exactly if the latest switch says so. It then calls, in the
order of their subscription, the callbacks that subscribed to the code of its fault, up to the first
that raises, and raises itself exactly if one of them does. No other operation calls anybody.
Neither a report, even one that raises, nor a clear changes the callbacks or the switch, so the
operations before a report decide what it leads to by their subscriptions and switches alone. -/
theorem reports_tell_subscribers (turns : Callback → Callback → Prop) (ops : List Operation) :
    Transcribed turns ops (({} : FaultLog).run ops).1 (({} : FaultLog).run ops).2 ∧
      ∀ log record, Transcribed turns ops log record →
        record.length = ops.length ∧
        (∀ before fault later, ops = before ++ .report fault :: later →
          ∃ subscribed,
            List.Forall₂ (Relation.ReflTransGen turns) (subscribers before fault.code) subscribed ∧
            record[before.length]? =
              some (some (announcement (logsAfter before) fault subscribed)) ∧
            (announcement (logsAfter before) fault subscribed).lines =
              if logsAfter before then [Line.diagnostic s!"ERROR: {fault.describe}"] else []) ∧
        (∀ before op later, ops = before ++ op :: later → op.fault? = none →
          record[before.length]? = some none) ∧
        (∀ op : Operation, op.fault?.isSome ∨ op.clears →
          (log.perform op).1.callbacks = log.callbacks ∧
            (log.perform op).1.logging = log.logging) ∧
        log.logging = logsAfter ops ∧
        ∀ code, List.Forall₂ (Relation.ReflTransGen turns) (subscribers ops code)
          (log.registered code) := by
  refine ⟨Transcribed.start.run ops, fun log record h => ?_⟩
  refine ⟨h.length_eq, ?_, ?_, ?_, h.wired⟩
  · intro before fault later hops
    obtain ⟨earlier, past, hpast, hget⟩ := h.performed hops
    obtain ⟨hlogging, hregistered⟩ := hpast.wired
    refine ⟨earlier.registered fault.code, hregistered fault.code, ?_, announcement_lines _ _ _⟩
    rw [hget, ← hlogging, ← dispatch_eq]
    rfl
  · intro before op later hops hop
    obtain ⟨earlier, past, hpast, hget⟩ := h.performed hops
    rw [hget]
    cases op with
    | report fault => cases hop
    | _ => rfl
  · intro op hop
    cases op with
    | report fault => exact ⟨rfl, rfl⟩
    | clear => exact ⟨rfl, rfl⟩
    | subscribe code callback => simp [Operation.fault?, Operation.clears] at hop
    | switchLogging enabled => simp [Operation.fault?, Operation.clears] at hop

/-- A callback that refuses a fault once: the first report is not logged and stops at it; the second
is logged and reaches the callback behind it. -/
theorem reports_tell_subscribers_twice :
    let refusing : Callback := ⟨"first", fun _ => true⟩
    let content : Callback := ⟨"first", fun _ => false⟩
    let behind : Callback := ⟨"second", fun _ => false⟩
    let elsewhere : Callback := ⟨"elsewhere", fun _ => true⟩
    let turns := fun a b => a = refusing ∧ b = content
    let fault : Fault := ⟨.runtime, .operationFailed, "no answer", "", 0⟩
    let before := [Operation.subscribe .operationFailed refusing,
      .subscribe .unknown elsewhere, .subscribe .operationFailed behind, .switchLogging false,
      .report fault, .clear, .switchLogging true]
    let ran := ({} : FaultLog).run before
    let turned := { ran.1 with callbacks := [(FaultCode.operationFailed, content),
      (.unknown, elsewhere), (.operationFailed, behind)] }
    let record := ran.2 ++ [(turned.perform (.report fault)).2]
    Transcribed turns (before ++ [.report fault]) (turned.perform (.report fault)).1 record ∧
      record[4]? = some (some ⟨[.called refusing fault], some refusing⟩) ∧
      record[7]? =
        some (some ⟨[.logged fault, .called content fault, .called behind fault], none⟩) ∧
      ∃ subscribed,
        List.Forall₂ (Relation.ReflTransGen turns) [refusing, behind] subscribed ∧
        record[7]? = some (some (announcement true fault subscribed)) ∧
        (announcement true fault subscribed).lines =
          [Line.diagnostic "ERROR: [RUNTIME] OPERATION_FAILED: no answer"] := by
  intro refusing content behind elsewhere turns fault before ran turned record
  obtain ⟨hran, _⟩ := reports_tell_subscribers turns before
  have hfirst : ran.1.callbacks = [] ++ (FaultCode.operationFailed, refusing) ::
      [(.unknown, elsewhere), (.operationFailed, behind)] := rfl
  have hturned : Transcribed turns before turned ran.2 := .turned hran hfirst ⟨rfl, rfl⟩
  have hrecord := hturned.next (.report fault)
  obtain ⟨_, htold, _⟩ :=
    (reports_tell_subscribers turns (before ++ [.report fault])).2 _ _ hrecord
  obtain ⟨subscribed, hsubscribed, hget, hlines⟩ := htold before fault [] rfl
  exact ⟨hrecord, rfl, rfl, subscribed, hsubscribed, hget, hlines.trans (by decide)⟩

end FaultLog

end PathMtu
