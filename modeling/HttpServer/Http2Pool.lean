import HttpServer.ThreadPool

/-!
# HTTP/2 connections and the pool

Event threads run `processHttp2`, which holds the `h2_mutex_` of its connection
while nghttp2 calls back, and the callback of a completed stream calls `enqueue`
from inside. The task of a stream ends in `submitHttp2Response`, which takes the
same mutex on a pool worker. Event threads also enqueue tasks of HTTP/1.1 and
WebSocket connections, without a mutex.

The pool is the one of `ThreadPool`: event thread `i` is its producer `i`, and a
worker that runs a task is at `running` there while `submissions` says how far the
task has come.
-/

namespace HttpServer

/-- A task of the pool: the stream of a connection, or any other. -/
inductive PoolJob where
  | plain
  | http2 (connection : Nat)
deriving DecidableEq

inductive EventThread where
  | free
  | locking (connection : Nat)
  | receiving (connection : Nat)
deriving DecidableEq

/-- The task of a stream: `Router::handle`, then waiting for the mutex, then holding
it in `submitHttp2Response`. -/
inductive Submission where
  | handling | submitting | sending | submitted
deriving DecidableEq

structure Http2Server where
  pool : ThreadPool PoolJob
  events : List EventThread
  submissions : List Submission
  /-- The connections whose `h2_mutex_` is held. -/
  locked : List Nat

inductive Http2Action where
  | enter (event connection : Nat)
  | lock (event : Nat)
  | completeStream (event : Nat)
  | leave (event : Nat)
  | enqueuePlain (event : Nat)
  | produce (event : Nat)
  | work (worker : Nat)
  | respond (worker : Nat)
  | abandon (worker : Nat)
  | acquire (worker : Nat)
  | release (worker : Nat)
deriving DecidableEq

namespace Http2Server

def initial (events workers : Nat) : Http2Server where
  pool := ThreadPool.initial events workers
  events := List.replicate events .free
  submissions := List.replicate workers .handling
  locked := []

/-- The event thread is at a statement of its own, not inside `enqueue`. -/
def isOutside (server : Http2Server) (event : Nat) : Prop :=
  server.pool.producers[event]? = some .idle

instance (server : Http2Server) (event : Nat) : Decidable (server.isOutside event) :=
  inferInstanceAs (Decidable (server.pool.producers[event]? = some .idle))

def enter (server : Http2Server) (event connection : Nat) : Option Http2Server :=
  if server.events[event]? = some .free ∧ server.isOutside event then
    some { server with events := server.events.set event (.locking connection) }
  else none

def lock (server : Http2Server) (event : Nat) : Option Http2Server :=
  match server.events[event]? with
  | some (.locking connection) =>
      if connection ∈ server.locked then none
      else some { server with
        events := server.events.set event (.receiving connection)
        locked := connection :: server.locked }
  | _ => none

/-- `h2_on_frame_recv_cb` for a completed stream: `enqueue` under the mutex. -/
def completeStream (server : Http2Server) (event : Nat) : Option Http2Server :=
  match server.events[event]? with
  | some (.receiving connection) =>
      (server.pool.enqueue event (some (.http2 connection))).map fun pool =>
        { server with pool := pool }
  | _ => none

/-- `processHttp2` returns or throws, and the lock guard unlocks. -/
def leave (server : Http2Server) (event : Nat) : Option Http2Server :=
  match server.events[event]? with
  | some (.receiving connection) =>
      if server.isOutside event then
        some { server with
          events := server.events.set event .free
          locked := server.locked.erase connection }
      else none
  | _ => none

def enqueuePlain (server : Http2Server) (event : Nat) : Option Http2Server :=
  if server.events[event]? = some .free then
    (server.pool.enqueue event (some .plain)).map fun pool => { server with pool := pool }
  else none

def produce (server : Http2Server) (event : Nat) : Option Http2Server :=
  (server.pool.produce event).map fun pool => { server with pool := pool }

/-- A step of the worker loop; the task of a stream returns when it has submitted. -/
def work (server : Http2Server) (worker : Nat) : Option Http2Server :=
  match server.pool.workers[worker]?, server.submissions[worker]? with
  | some (.running (.http2 _)), some .submitted =>
      (server.pool.work worker).map fun pool =>
        { server with pool := pool, submissions := server.submissions.set worker .handling }
  | some (.running (.http2 _)), _ => none
  | _, _ => (server.pool.work worker).map fun pool => { server with pool := pool }

def advance (server : Http2Server) (worker : Nat) (place next : Submission)
    (locked : Nat → Option (List Nat)) : Option Http2Server :=
  match server.pool.workers[worker]?, server.submissions[worker]? with
  | some (.running (.http2 connection)), some current =>
      if current = place then
        (locked connection).map fun held =>
          { server with submissions := server.submissions.set worker next, locked := held }
      else none
  | _, _ => none

def respond (server : Http2Server) (worker : Nat) : Option Http2Server :=
  server.advance worker .handling .submitting fun _ => some server.locked

/-- `Router::handle` threw; the task logs and returns. -/
def abandon (server : Http2Server) (worker : Nat) : Option Http2Server :=
  server.advance worker .handling .submitted fun _ => some server.locked

def acquire (server : Http2Server) (worker : Nat) : Option Http2Server :=
  server.advance worker .submitting .sending fun connection =>
    if connection ∈ server.locked then none else some (connection :: server.locked)

def release (server : Http2Server) (worker : Nat) : Option Http2Server :=
  server.advance worker .sending .submitted fun connection =>
    some (server.locked.erase connection)

def step (server : Http2Server) : Http2Action → Option Http2Server
  | .enter event connection => server.enter event connection
  | .lock event => server.lock event
  | .completeStream event => server.completeStream event
  | .leave event => server.leave event
  | .enqueuePlain event => server.enqueuePlain event
  | .produce event => server.produce event
  | .work worker => server.work worker
  | .respond worker => server.respond worker
  | .abandon worker => server.abandon worker
  | .acquire worker => server.acquire worker
  | .release worker => server.release worker

/-- An event thread waits in `enqueue` for space and holds a connection's mutex,
and every pool worker waits for that mutex. -/
def Deadlocked (server : Http2Server) : Prop :=
  ∃ (event connection : Nat) (task : Option PoolJob),
    server.events[event]? = some (.receiving connection) ∧
    server.pool.producers[event]? = some (.counted task) ∧
    server.pool.shared.spaceAvailable = 0 ∧
    ∀ worker < server.pool.workers.length,
      server.pool.workers[worker]? = some (.running (.http2 connection)) ∧
        server.submissions[worker]? = some .submitting

end Http2Server

end HttpServer
