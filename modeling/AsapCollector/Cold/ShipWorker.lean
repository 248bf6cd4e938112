import AsapCollector.Lib.Bytes
import AsapCollector.Lib.GoMap

/-! `shipWorker` of `asapedgeprocessor/cold_spool.go`, started. A step is what one goroutine does between two points at
which another may act: reading a spool file, shipping it and removing it are steps of their own, a write to the spool
happens under the mutex and is one. Whether a ship attempt succeeds and what the clock says is part of the step. -/

namespace AsapCollector

/-- A batch given to `enqueue`. The number tells batches with one body apart; nothing reads it. -/
structure Batch where
  number : Nat
  body : Bytes
deriving DecidableEq

structure ShipConfig where
  noop : Bool := false
  spoolDir : Bytes
  spoolMaxBytes : Int
  queueDepth : Nat
  pid : UInt64

inductive ShipTask where
  | done
  | shipping (b : Batch)
  | spooling (b : Batch)
  | draining (files : List Bytes)
  | reshipping (file : Bytes) (b : Batch) (files : List Bytes)
  | removing (file : Bytes) (files : List Bytes)
deriving DecidableEq

inductive ShutdownPhase where
  | notCalled
  | waiting
  | looping
  | shipOrSpool (t : ShipTask)
  | checking
  | drainSpool (t : ShipTask)
  | returned
deriving DecidableEq

/-- `shipWorker` with its goroutines. `run` is none once the loop has returned; `flusher` holds a batch that
found the queue full. `accepted` and `shipped` only record: the batches `enqueue` has taken and those shipped. -/
structure ShipWorker where
  queue : List Batch := []
  spool : GoMap Bytes Batch := ∅
  run : Option ShipTask := some .done
  shutdown : ShutdownPhase := .notCalled
  flusher : Option Batch := none
  ctxDone : Bool := false
  accepted : List Batch := []
  shipped : List Batch := []

inductive TaskStep where
  | ships (ok : Bool)
  | spools (nowUnixNano : UInt64)
  | reads (readable : Bool)
  | removes

inductive ShipStep where
  | enqueue (body : Bytes)
  | flusherSpools (nowUnixNano : UInt64)
  | take
  | tick
  | stop
  | run (s : TaskStep)
  | shutdown
  | expire
  | proceed
  | giveUp
  | shutdownTakes
  | shutdownRuns (s : TaskStep)
  | shutdownChecks

namespace ShipWorker

def spoolFileExt : Bytes := str ".asapfrg.gz"

variable (cfg : ShipConfig) (spool : GoMap Bytes Batch)

/-- The name of a spool file: `%020d-%d` of the time and the process. -/
def spoolName (nowUnixNano : UInt64) : Bytes :=
  let digits := Bytes.formatUint nowUnixNano
  List.replicate (20 - digits.length) (Bytes.digitChar 0) ++ digits ++ str "-" ++ Bytes.formatUint cfg.pid ++
    spoolFileExt

def listSpool : List Bytes :=
  (spool.keys.filter fun name => (str ".gz").isSuffixOf name).insertionSort (· ≤ ·)

def fileSize (file : Bytes) : Int := ((spool.lookup file).map fun b => (b.body.length : Int)).getD 0

def spoolBytes : Int := ((listSpool spool).map (fileSize spool)).sum

def dropOldest (cap : Int) : Int → List Bytes → GoMap Bytes Batch → GoMap Bytes Batch
  | _, [], spool => spool
  | total, file :: files, spool =>
    if cap < total then dropOldest cap (total - fileSize spool file) files (spool.erase file) else spool

def enforceCap (spool : GoMap Bytes Batch) : GoMap Bytes Batch :=
  if cfg.spoolMaxBytes ≤ 0 then spool else dropOldest cfg.spoolMaxBytes (spoolBytes spool) (listSpool spool) spool

variable (w : ShipWorker)

def write (b : Batch) (nowUnixNano : UInt64) : ShipWorker :=
  if cfg.spoolDir = [] then w
  else { w with spool := enforceCap cfg (w.spool.insert (spoolName cfg nowUnixNano) b) }

def startDrain : ShipTask :=
  if cfg.spoolDir = [] ∨ cfg.noop then .done else .draining (listSpool w.spool)

/-- One step of `shipOrSpool` or `drainSpool`; `ctxDone` is whether the context of the call is done. -/
def advance (ctxDone : Bool) (w : ShipWorker) : ShipTask → TaskStep → ShipWorker × ShipTask
  | .shipping b, .ships true => ({ w with shipped := w.shipped ++ [b] }, .done)
  | .shipping b, .ships false => (w, .spooling b)
  | .spooling b, .spools nowUnixNano => (write cfg w b nowUnixNano, .done)
  | .draining [], .reads _ => (w, .done)
  | .draining (file :: files), .reads readable =>
    if ctxDone then (w, .done)
    else
      match if readable then w.spool.lookup file else none with
      | none => (w, .draining files)
      | some b => (w, .reshipping file b files)
  | .reshipping file b files, .ships true => ({ w with shipped := w.shipped ++ [b] }, .removing file files)
  | .reshipping .., .ships false => (w, .done)
  | .removing file files, .removes => ({ w with spool := w.spool.erase file }, .draining files)
  | t, _ => (w, t)

def enqueue (body : Bytes) : ShipWorker :=
  if cfg.noop ∨ body = [] then w
  else
    let b : Batch := ⟨w.accepted.length, body⟩
    if w.queue.length < cfg.queueDepth then { w with queue := w.queue ++ [b], accepted := w.accepted ++ [b] }
    else { w with flusher := some b }

/-- One step. What cannot happen leaves the worker as it is. -/
def step : ShipStep → ShipWorker
  | .enqueue body => if w.flusher.isSome then w else w.enqueue cfg body
  | .flusherSpools nowUnixNano =>
    match w.flusher with
    | none => w
    | some b => { write cfg w b nowUnixNano with flusher := none, accepted := w.accepted ++ [b] }
  | .take =>
    match w.run, w.queue with
    | some .done, b :: queue => { w with run := some (.shipping b), queue }
    | _, _ => w
  | .tick => if w.run = some .done then { w with run := some (w.startDrain cfg) } else w
  | .stop => if w.run = some .done ∧ w.shutdown ≠ .notCalled then { w with run := none } else w
  | .run s =>
    match w.run with
    | none => w
    | some t =>
      let (w, t) := advance cfg false w t s
      { w with run := some t }
  | .shutdown => if w.shutdown = .notCalled then { w with shutdown := .waiting } else w
  | .expire => { w with ctxDone := true }
  | .proceed => if w.shutdown = .waiting ∧ w.run = none then { w with shutdown := .looping } else w
  | .giveUp => if w.shutdown = .waiting ∧ w.ctxDone then { w with shutdown := .returned } else w
  | .shutdownTakes =>
    if w.shutdown = .looping then
      match w.queue with
      | b :: queue => { w with shutdown := .shipOrSpool (.shipping b), queue }
      | [] => { w with shutdown := .drainSpool (w.startDrain cfg) }
    else w
  | .shutdownRuns s =>
    match w.shutdown with
    | .shipOrSpool t =>
      let (w, t) := advance cfg w.ctxDone w t s
      { w with shutdown := if t = .done then .checking else .shipOrSpool t }
    | .drainSpool t =>
      let (w, t) := advance cfg w.ctxDone w t s
      { w with shutdown := if t = .done then .returned else .drainSpool t }
    | _ => w
  | .shutdownChecks =>
    if w.shutdown = .checking then { w with shutdown := if w.ctxDone then .returned else .looping } else w

def runSteps (steps : List ShipStep) : ShipWorker := steps.foldl (step cfg) w

end ShipWorker

end AsapCollector
