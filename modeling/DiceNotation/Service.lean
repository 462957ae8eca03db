import DiceNotation.Answer
import DiceNotation.Dice.Twister
import DiceNotation.Log
import DiceNotation.Settings

/-!
# The service

The service offers two tools to remote clients, one that rolls a notation and one that reads it
without rolling. A call is answered by a text that holds one JSON object, whether it succeeds or
not. The limits and the standard seed come from the settings; where these set no limit of dice, the
service has one of its own.

The calls reach the service over a transport, which is not part of the program. All that is known of
a transport is what it does with the answers: it brings the next calls, and in the end it returns or
fails. It fails as incomplete if a part of it turns out not to be installed.
-/

set_option autoImplicit false

namespace DiceNotation

/-- A call of a tool. -/
inductive Call
  | roll (text : String) (seed : Option Int) (isDetailed : Bool)
  | parse (text : String)
deriving DecidableEq

/-- What the answers of a service depend on. -/
structure Service where
  limits : Limits
  seed : Option Int

namespace Service

/-- The limit of dice of a service whose settings give none. -/
def standardMaxDice : Int := 10000

/-- The service of some settings. -/
def ofSettings (settings : Settings) : Service where
  limits := {
    maxDice := some (settings.maxDice.getD standardMaxDice)
    maxDepth := settings.maxDepth }
  seed := settings.seed

/-- The generator for a seed, or the given one where there is no seed. -/
def generator (fresh : Twister) (seed : Option Int) : Twister :=
  seed.elim fresh Twister.ofSeed

/-- The answer to a call, with what it adds to the log. -/
def answer (service : Service) (fresh : Twister) : Call → Json × List LogEntry
  | .roll text seed isDetailed =>
    let rolled := rollDetailed Twister.source (generator fresh (seed <|> service.seed))
      service.limits text
    let failure := match rolled.outcome with
      | .error fault => [.rollFailed text fault]
      | .ok _ => []
    (Answer.ofRoll isDetailed rolled.outcome, LogEntry.ofTable rolled.table ++ failure)
  | .parse text => (Answer.ofParse text (Expr.parse text service.limits.maxDepth), [])

end Service

/-- What a service has done: its answers, and its log. -/
structure ServiceRun where
  answers : List Json
  log : List LogEntry

/-- The log entry with which a service starts. -/
def LogEntry.ofSettings (settings : Settings) : LogEntry :=
  .serving settings.maxDice settings.maxDepth.levels

/-- How a transport fails. -/
inductive TransportFailure
  | incomplete
  | failed
deriving DecidableEq

/-- What a transport has done: the calls that it has brought, and how it failed if it did. -/
structure Exchange where
  calls : List Call
  failure : Option TransportFailure := none

/-- A transport, which is told how the service answers each call of each turn. -/
abbrev Transport : Type :=
  (Nat → Call → Json) → Exchange

/-- The transport brings the calls that it brings to an end. -/
def Transport.Returns (transport : Transport) : Prop :=
  ∀ answers, (transport answers).failure = none

/-- Answers some calls, one after the other; each has a generator of its own for rolls without a
seed. -/
def Service.run (service : Service) (fresh : Nat → Twister) (calls : List Call) : ServiceRun :=
  let answered := calls.mapIdx fun turn => service.answer (fresh turn)
  ⟨answered.map Prod.fst, answered.flatMap Prod.snd⟩

/-- What a transport does with a service. -/
def Service.exchange (service : Service) (fresh : Nat → Twister) (transport : Transport) :
    Exchange :=
  transport fun turn call => (service.answer (fresh turn) call).1

end DiceNotation
