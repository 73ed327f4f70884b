/-! A mailbox that drops the oldest message when it is full, and says how many it dropped. -/
namespace Vigil.Shell

structure Mailbox (α : Type) where
  limit : Nat := 32
  missed : Nat := 0
  /-- The oldest first. -/
  messages : List α := []

namespace Mailbox

variable {α : Type}

def post (m : Mailbox α) (a : α) : Mailbox α :=
  if m.limit ≤ m.messages.length then
    { m with missed := m.missed + 1, messages := m.messages.drop 1 ++ [a] }
  else { m with messages := m.messages ++ [a] }

/-- What the reader takes next: the number of messages it missed, or the oldest it has. -/
inductive Item (α : Type) where
  | missed (n : Nat)
  | message (a : α)

def take? (m : Mailbox α) : Option (Item α × Mailbox α) :=
  if 0 < m.missed then some (.missed m.missed, { m with missed := 0 })
  else match m.messages with
    | [] => none
    | a :: rest => some (.message a, { m with messages := rest })

def isEmpty (m : Mailbox α) : Bool := m.missed == 0 && m.messages.isEmpty

end Mailbox

end Vigil.Shell
