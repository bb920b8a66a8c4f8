import OtelFleet.Webhooks

-- The queue between those who publish events and the loop that dispatches them. Operations on the
-- channel are atomic, and nothing keeps others from coming in between two of them.
namespace Webhooks.Queue

inductive Role where
  | publish (evt : Event)
  | run

inductive Call where
  | idle
  -- About to send.
  | publishing (evt : Event)
  -- There was no room to send, and the oldest event is about to be received.
  | crowded (evt : Event)
  | running

def Call.isIdle : Call → Bool
  | idle => true
  | _ => false

def Role.begin : Role → Call
  | publish evt => .publishing evt
  | run => .running

-- Neither the send nor the receive of a publisher blocks. The loop waits while there is nothing to receive.
def step (_ : Unit) (queue : List Event) : Call → Call × List Event
  | .idle => (.idle, queue)
  | .publishing evt =>
    if queue.length < queueSize then (.idle, queue ++ [evt]) else (.crowded evt, queue)
  | .crowded evt => (.publishing evt, queue.tail)
  | .running => (.running, queue.tail)

def system : Interleave.System Role Call (List Event) Unit where
  idle := .idle
  isIdle := Call.isIdle
  begin := Role.begin
  step := step

-- What happens to events. A drop comes with the number of events that are queued at that moment.
inductive Op where
  | enqueued (evt : Event)
  | dropped (evt : Event) (queued : Nat)
  | dispatched (evt : Event)
deriving DecidableEq

def ops (_ : Unit) (queue : List Event) : Call → List Op
  | .idle => []
  | .publishing evt => if queue.length < queueSize then [.enqueued evt] else []
  | .crowded _ => queue.head?.toList.map (.dropped · queue.length)
  | .running => queue.head?.toList.map .dispatched

def Op.enqueued? : Op → Option Event
  | enqueued evt => some evt
  | _ => none

def Op.removed? : Op → Option Event
  | dropped evt _ | dispatched evt => some evt
  | _ => none

def Op.dispatched? : Op → Option Event
  | dispatched evt => some evt
  | _ => none

abbrev Config := Interleave.Config Call (List Event)

abbrev Schedule := List (Interleave.Event Role Unit)

def begunBy (c : Config) : Interleave.Event Role Unit → List Event
  | .start i (.publish evt) => if (c.calls i).isIdle then [evt] else []
  | _ => []

def published : Config → Schedule → List Event
  | _, [] => []
  | c, e :: es => begunBy c e ++ published (system.act c e) es

def empty : Config :=
  system.init []

end Webhooks.Queue
