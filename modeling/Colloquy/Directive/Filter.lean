import Colloquy.Message

/-!
# Colloquy — filtering messages

Three filters drop messages: all up to the last marker of a role, those that say
nothing or are to be skipped, and markers of responses.
-/

namespace Colloquy

/-- The messages after the last one of a role, if there is one. -/
def afterLast? (marker : Role) : List Message → Option (List Message)
  | [] => none
  | m :: rest =>
    match afterLast? marker rest with
    | some after => some after
    | none => if m.role = marker then some rest else none

/-- The messages after the last marker, or all. -/
def clear (marker : Role) (messages : List Message) : List Message :=
  (afterLast? marker messages).getD messages

/-- A message that stays when empty and skipped ones are dropped. The markers that take tools out of
the catalogue say something by being there. -/
def survives (skipRole : Role) (m : Message) : Bool :=
  m.role != skipRole &&
    (!m.isEmpty || m.role == .clearTools || m.role == .clearAssociations)

/-- Drop empty messages and those of the role to be skipped. -/
def clean (skipRole : Role) (messages : List Message) : List Message :=
  messages.filter (survives skipRole)

/-- Drop the markers of responses. -/
def purge (messages : List Message) : List Message :=
  messages.filter fun m => m.role != .previousResponseId

end Colloquy
