/-!
# The network

What the network does is a function of the address that is asked for.  An exchange says everything
about one request: whether an answer comes, what it holds, how its body ends, and whether the far
side sets the interrupt of whoever waits for it.  The answer is the last one: a client that is told of
another location asks there, and the address is the one that it was asked for first.
-/
namespace PolicyForge

inductive BodyEnd where
  | complete
  /-- The connection breaks off before the promised end. -/
  | broken
  /-- Nothing more comes, and the connection stays open. -/
  | stalled
  deriving DecidableEq, Repr

inductive Exchange where
  | refused
  | silent (interrupts : Bool)
  /-- An answer comes, with its body in pieces; `interrupts` is set after the last of them. -/
  | answered (status : Nat) (chunks : List ByteArray) (bodyEnd : BodyEnd) (interrupts : Bool)

structure Network where
  exchange : String → Exchange
  /-- The addresses asked for so far, first to last. -/
  requests : List String

def Network.none : Network := ⟨fun _ => .refused, []⟩

/-- Whether an answer reports an error of the client or of the server. -/
def isErrorStatus (status : Nat) : Bool := 400 ≤ status && status < 600

end PolicyForge
