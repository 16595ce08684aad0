import HttpServer.ConnectionSession
import Mathlib.Logic.Function.Basic

/-!
# The server: workers, pool tasks, descriptors

Every worker runs its own loop over its own epoll instance and its own table of
connections; descriptor numbers belong to the one process. A connection object
lives as long as somebody holds a `shared_ptr` to it: the table of its worker, a
pool task, or another thread (the telemetry broadcaster locks its weak pointers).
With the last of these it is destroyed, and `~Socket` closes the number it was
given, whoever has it by then. The kernel hands out any number that is not open,
drops a closed number from every epoll instance, and refuses `DEL` and `MOD` on
a number that is not registered and `ADD` on a closed or registered one. Worker
steps are those between which `run` can be interrupted: one event, one accepted
connection, one sweep.
-/

namespace HttpServer

abbrev Fd := Nat
abbrev ConnectionId := Nat
abbrev WorkerId := Nat

structure Registration where
  interest : Interest
  armed : Bool
deriving DecidableEq, Repr

inductive Readiness where
  | hangup | readable | writable
deriving DecidableEq, Repr

inductive PollEvent where
  | listener
  | client (fd : Fd) (readiness : Readiness)
deriving DecidableEq, Repr

def PollEvent.clientFd : PollEvent → Option Fd
  | .listener => none
  | .client fd _ => some fd

/-- Where a worker stands in `run`: at the head of the loop, in `epoll_wait`,
with events still to handle, or behind the loop. -/
inductive WorkerPhase where
  | deciding
  | waiting
  | handling (events : List PollEvent)
  | exited
deriving DecidableEq, Repr

structure WorkerState where
  phase : WorkerPhase := .deciding
  /-- `active_connections_` -/
  table : Fd → Option ConnectionId := fun _ => none
  epoll : Fd → Option Registration := fun _ => none

structure ConnectionObject where
  fd : Fd
  worker : WorkerId
  connection : ClientConnection := {}
deriving DecidableEq, Repr

structure PoolTask where
  connection : ConnectionId
  worker : WorkerId
  fd : Fd
  task : Task
  /-- The body has returned; the closure still holds its `shared_ptr`. -/
  ended : Bool := false
deriving DecidableEq, Repr

inductive CloseIssuer where
  | task | destructor
deriving DecidableEq, Repr

/-- One `::close` call: on whose behalf it was made, and whose the number was. -/
structure CloseCall where
  issuer : CloseIssuer
  connection : ConnectionId
  fd : Fd
  found : Option ConnectionId
deriving DecidableEq, Repr

structure TcpServer where
  running : Bool := true
  /-- An exception left `Worker::run`. -/
  terminated : Bool := false
  workers : WorkerId → WorkerState := fun _ => {}
  /-- The connection for which the kernel has handed out an open number. -/
  owner : Fd → Option ConnectionId := fun _ => none
  objects : ConnectionId → Option ConnectionObject := fun _ => none
  accepted : Nat := 0
  tasks : List PoolTask := []
  holds : List ConnectionId := []
  closes : List CloseCall := []

inductive ServerStep where
  | decide (worker : WorkerId)
  | wait (worker : WorkerId) (events : List PollEvent)
  | accept (worker : WorkerId) (fd : Fd)
  | acceptEnd (worker : WorkerId)
  | client (worker : WorkerId) (event : ClientEvent)
  | sweep (worker : WorkerId) (stale : List Fd)
  | teardown (worker : WorkerId) (fd : Fd)
  | finish (index : Nat) (throws : Bool)
  | drop (index : Nat)
  | hold (connection : ConnectionId)
  | release (connection : ConnectionId)
  | stop
deriving DecidableEq, Repr

namespace TcpServer

def updateWorker (server : TcpServer) (worker : WorkerId) (change : WorkerState → WorkerState) :
    TcpServer :=
  { server with
    workers := Function.update server.workers worker (change (server.workers worker)) }

def setPhase (server : TcpServer) (worker : WorkerId) (phase : WorkerPhase) : TcpServer :=
  server.updateWorker worker fun state => { state with phase := phase }

def setRegistration (server : TcpServer) (worker : WorkerId) (fd : Fd)
    (registration : Option Registration) : TcpServer :=
  server.updateWorker worker fun state =>
    { state with epoll := Function.update state.epoll fd registration }

def setEntry (server : TcpServer) (worker : WorkerId) (fd : Fd) (entry : Option ConnectionId) :
    TcpServer :=
  server.updateWorker worker fun state =>
    { state with table := Function.update state.table fd entry }

/-- `::close`: the number is free and gone from every epoll instance. -/
def closeFd (server : TcpServer) (issuer : CloseIssuer) (connection : ConnectionId) (fd : Fd) :
    TcpServer :=
  { server with
    owner := Function.update server.owner fd none
    workers := fun worker =>
      { server.workers worker with
        epoll := Function.update (server.workers worker).epoll fd none }
    closes := server.closes ++
      [{ issuer := issuer, connection := connection, fd := fd, found := server.owner fd }] }

def inTable (server : TcpServer) (connection : ConnectionId) : Bool :=
  match server.objects connection with
  | some object => decide ((server.workers object.worker).table object.fd = some connection)
  | none => false

/-- Whether a `shared_ptr` to the connection is left. -/
def isHeld (server : TcpServer) (connection : ConnectionId) : Bool :=
  server.inTable connection || server.holds.contains connection ||
    server.tasks.any fun task => decide (task.connection = connection)

/-- One `shared_ptr` to the connection has gone; the last one destroys it. -/
def releaseObject (server : TcpServer) (connection : ConnectionId) : TcpServer :=
  match server.objects connection with
  | some object =>
      if server.isHeld connection then server
      else
        { server.closeFd .destructor connection object.fd with
          objects := Function.update server.objects connection none }
  | none => server

def eraseEntry (server : TcpServer) (worker : WorkerId) (fd : Fd) : TcpServer :=
  match (server.workers worker).table fd with
  | some connection => (server.setEntry worker fd none).releaseObject connection
  | none => server

/-- `disconnectClient`; a throwing `epoll_.remove` leaves `run`. -/
def disconnectClient (server : TcpServer) (worker : WorkerId) (fd : Fd) : TcpServer :=
  if ((server.workers worker).epoll fd).isSome then
    (server.setRegistration worker fd none).eraseEntry worker fd
  else { server with terminated := true }

/-- The calls of `handleClientData` for the connection found under `fd`. -/
def runActions (server : TcpServer) (worker : WorkerId) (fd : Fd) (connection : ConnectionId) :
    List Action → TcpServer
  | [] => server
  | .modify interest :: rest =>
      if ((server.workers worker).epoll fd).isSome then
        runActions
          (server.setRegistration worker fd (some { interest := interest, armed := true }))
          worker fd connection rest
      else server.disconnectClient worker fd
  | .send _ :: rest => runActions server worker fd connection rest
  | .enqueue task :: rest =>
      runActions
        { server with
          tasks := server.tasks ++
            [{ connection := connection, worker := worker, fd := fd, task := task }] }
        worker fd connection rest
  | .disconnect :: _ => server.disconnectClient worker fd

def handleClientData (crypto : Worker.Crypto) (server : TcpServer) (worker : WorkerId) (fd : Fd)
    (event : ClientEvent) : TcpServer :=
  match (server.workers worker).table fd with
  | none => server
  | some connection =>
      match server.objects connection with
      | none => server
      | some object =>
          let handled := Worker.handleClientData crypto object.connection event
          runActions
            { server with
              objects := Function.update server.objects connection
                (some { object with connection := handled.1 }) }
            worker fd connection handled.2

/-- One turn of `handleNewConnection` with the number `accept` returned. The
assignment into the table releases what was stored under the number. -/
def acceptConnection (server : TcpServer) (worker : WorkerId) (fd : Fd) : TcpServer :=
  let stored := (server.workers worker).table fd
  let entered :=
    { server with
      owner := Function.update server.owner fd (some server.accepted)
      objects := Function.update server.objects server.accepted
        (some { fd := fd, worker := worker })
      accepted := server.accepted + 1 }.setEntry worker fd (some server.accepted)
  let released :=
    match stored with
    | some connection => entered.releaseObject connection
    | none => entered
  if (released.owner fd).isNone || ((released.workers worker).epoll fd).isSome then
    { released with terminated := true }
  else released.setRegistration worker fd (some { interest := .readable, armed := true })

/-- `sweepIdleConnections`, which may find any connections idle. -/
def sweepIdleConnections (server : TcpServer) (worker : WorkerId) : List Fd → TcpServer
  | [] => server
  | fd :: stale =>
      let following := server.disconnectClient worker fd
      if following.terminated then following else sweepIdleConnections following worker stale

/-- What epoll may report: an armed registration, in line with its mask; errors
and hang-ups come with every mask. -/
def isReady (state : WorkerState) : PollEvent → Bool
  | .listener => true
  | .client fd readiness =>
      match state.epoll fd with
      | some registration =>
          registration.armed &&
            match readiness with
            | .hangup => true
            | .readable => decide (registration.interest = .readable)
            | .writable => decide (registration.interest = .writable)
      | none => false

def disarm (server : TcpServer) (worker : WorkerId) : List PollEvent → TcpServer
  | [] => server
  | .listener :: events => disarm server worker events
  | .client fd _ :: events =>
      disarm
        (server.setRegistration worker fd
          (((server.workers worker).epoll fd).map fun registration =>
            { registration with armed := false }))
        worker events

def setTask (server : TcpServer) (index : Nat) (task : PoolTask) : TcpServer :=
  { server with tasks := server.tasks.set index task }

/-- Whether the body of a task, run now, ends with `epoll_.modify`. -/
def rearmsNow (server : TcpServer) (task : PoolTask) (throws : Bool) : Bool :=
  task.task.rearms && server.running && !throws &&
    ((server.workers task.worker).epoll task.fd).isSome

/-- The body of a task; that of an HTTP/2 task makes no call on the descriptor. -/
def finishTask (server : TcpServer) (index : Nat) (task : PoolTask) (throws : Bool) : TcpServer :=
  let ended := server.setTask index { task with ended := true }
  match task.task with
  | .http2 _ _ => ended
  | _ =>
      if server.rearmsNow task throws then
        ended.setRegistration task.worker task.fd (some { interest := .readable, armed := true })
      else ended.closeFd .task task.connection task.fd

def step (crypto : Worker.Crypto) (server : TcpServer) (label : ServerStep) : Option TcpServer :=
  if server.terminated then none
  else
    match label with
    | .decide worker =>
        if (server.workers worker).phase = .deciding then
          some (server.setPhase worker (if server.running then .waiting else .exited))
        else none
    | .wait worker events =>
        if (server.workers worker).phase = .waiting ∧
            events.all (isReady (server.workers worker)) = true ∧
            (events.filterMap PollEvent.clientFd).Nodup then
          some ((server.disarm worker events).setPhase worker (.handling events))
        else none
    | .accept worker fd =>
        match (server.workers worker).phase with
        | .handling (.listener :: _) =>
            if server.owner fd = none then some (server.acceptConnection worker fd) else none
        | _ => none
    | .acceptEnd worker =>
        match (server.workers worker).phase with
        | .handling (.listener :: events) => some (server.setPhase worker (.handling events))
        | _ => none
    | .client worker event =>
        match (server.workers worker).phase with
        | .handling (.client fd readiness :: events) =>
            let taken := server.setPhase worker (.handling events)
            match readiness with
            | .hangup => some (taken.disconnectClient worker fd)
            | .readable => some (taken.handleClientData crypto worker fd event)
            | .writable => some taken
        | _ => none
    | .sweep worker stale =>
        if (server.workers worker).phase = .handling [] ∧ stale.Nodup ∧
            stale.all (fun fd => ((server.workers worker).table fd).isSome) = true then
          some ((server.sweepIdleConnections worker stale).setPhase worker .deciding)
        else none
    | .teardown worker fd =>
        -- the table goes with the worker, one element after another
        if (server.workers worker).phase = .exited ∧
            ((server.workers worker).table fd).isSome = true then
          some (server.eraseEntry worker fd)
        else none
    | .finish index throws =>
        match server.tasks[index]? with
        | some task => if task.ended then none else some (server.finishTask index task throws)
        | none => none
    | .drop index =>
        -- a task that never ran goes with the pool, after its worker
        match server.tasks[index]? with
        | some task =>
            if task.ended || decide ((server.workers task.worker).phase = .exited) then
              some ({ server with tasks := server.tasks.eraseIdx index }.releaseObject
                task.connection)
            else none
        | none => none
    | .hold connection =>
        if (server.objects connection).isSome then
          some { server with holds := connection :: server.holds }
        else none
    | .release connection =>
        if server.holds.contains connection then
          some ({ server with holds := server.holds.erase connection }.releaseObject connection)
        else none
    | .stop => some { server with running := false }

end TcpServer

end HttpServer
