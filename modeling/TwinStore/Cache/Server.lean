import TwinStore.Value.Basic

/-!
# The set server

The cache keeps its records in the sets of a server.  The server knows four commands; each of them
can be out of order.

Main definitions:

- `Command`: the commands.
- `Outage`: how a command fails.
- `Server`: the sets, the commands that fail, and the commands received so far.
- `Server.add`, `Server.remove`: the changes of a set.
-/

namespace TwinStore.Cache

/-- A command of the server. -/
inductive Command where
  | ping
  | members
  | add
  | remove
deriving DecidableEq, Repr

/-- The name of a command. -/
def Command.name : Command → String
  | ping => "ping"
  | members => "smembers"
  | add => "sadd"
  | remove => "srem"

/-- How a command fails: the server refuses it, the system does, or its arguments make no sense. -/
inductive Outage where
  | refused
  | system
  | badValue
deriving DecidableEq, Repr

/-- Inserts a text into a sorted list without repetition. -/
def insertMember (member : String) : List String → List String
  | [] => [member]
  | m :: rest =>
    if member < m then member :: m :: rest
    else if member = m then m :: rest
    else m :: insertMember member rest

/-- The sets under their keys, each sorted and without repetition; the commands that fail, under
their names; and the commands received so far. -/
structure Server where
  sets : Entries (List String) := []
  outages : Entries Outage := []
  received : List Command := []

namespace Server

/-- The members of a set; a set that is not there is empty. -/
def members (s : Server) (key : String) : List String := (Entries.get? s.sets key).getD []

/-- Adds members to a set, which is made if it is not there. -/
def add (s : Server) (key : String) (members : List String) : Server :=
  { s with sets := Entries.set s.sets key (members.foldl (fun set m => insertMember m set)
      (s.members key)) }

/-- Removes members from a set, which is made if it is not there. -/
def remove (s : Server) (key : String) (members : List String) : Server :=
  { s with sets := Entries.set s.sets key ((s.members key).filter fun m => !members.contains m) }

/-- Removes all sets. -/
def clear (s : Server) : Server := { s with sets := [] }

/-- The failure of a command, if it fails. -/
def outage? (s : Server) (command : Command) : Option Outage :=
  Entries.get? s.outages command.name

end Server

end TwinStore.Cache
