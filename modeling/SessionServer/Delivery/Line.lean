import SessionServer.Delivery.Transport
import SessionServer.Timeline

/-!
Contract: delivery over time.

Owns: `DeliveryLine`, a queue with its transport and the loops that drain it on a clock of whole
seconds. A loop makes one step of delivery when it starts and one after every full period from
then on; a failed delivery does not end it. Loops that are due at the same moment run in the order
in which they were started. A loop of period zero never gets to its first step.

Main statement: `advance_add`, time may be cut into pieces at will.
-/

namespace SessionServer

/-- A loop that drains the queue. -/
structure DrainLoop where
  period : Nat
  due : Nat
deriving DecidableEq, Repr

/-- A queue, the transport behind it and the loops that drain it. -/
structure DeliveryLine (τ : Type) where
  queue : DeliveryQueue := .empty
  transport : τ
  now : Nat := 0
  loops : List DrainLoop := []

namespace DeliveryLine

variable {τ : Type} [Transport τ]

/-- One step of delivery whose outcome nobody waits for. -/
def drain (line : DeliveryLine τ) : DeliveryLine τ :=
  let step := drainOnce line.queue line.transport
  { line with queue := step.queue, transport := step.transport }

/-- Starts a loop; its first step follows at once. -/
def start (line : DeliveryLine τ) (period : Nat) : DeliveryLine τ :=
  if period = 0 then line
  else { line.drain with loops := line.loops ++ [⟨period, line.now + period⟩] }

/-- The loops after the moment `now`, those that were due then being due one period later. -/
def rearm (now : Nat) (loops : List DrainLoop) : List DrainLoop :=
  loops.map fun loop => if loop.due = now then { loop with due := now + loop.period } else loop

/-- Makes one step for every loop that is due at the present moment. -/
def settle (line : DeliveryLine τ) : DeliveryLine τ :=
  let due := line.loops.filter fun loop => loop.due = line.now
  let drained := due.foldl (fun line _ => line.drain) line
  { drained with loops := rearm line.now line.loops }

/-- A delivery line in time: it is busy at the moments for which its loops are due. -/
def timeline : Timeline (DeliveryLine τ) where
  now := now
  moments line := line.loops.map DrainLoop.due
  pass seconds line := { line with now := line.now + seconds }
  settle := settle
  now_pass _ _ := rfl
  moments_pass _ _ := rfl
  pass_zero _ := rfl
  pass_add first second line := by rw [Nat.add_assoc]

def advance (line : DeliveryLine τ) (seconds : Nat) : DeliveryLine τ :=
  timeline.advance seconds line

theorem advance_add (line : DeliveryLine τ) (first second : Nat) :
    line.advance (first + second) = (line.advance first).advance second :=
  timeline.advance_add first second line

end DeliveryLine

end SessionServer
