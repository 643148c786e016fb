import TwinStore.Cache.Connection
import TwinStore.Proofs.Entries

/-!
# The sets of the server

A set of the server is a sorted list without repetition, as long as it is only added to and removed
from.  Each change concerns one set.

Main definition:

- `Cache.AreSorted`: sets of which each is sorted and without repetition.

Main results:

- Theorem `Server.mem_members_add`, `Server.mem_members_remove`: the members after a change.
- Theorem `AreSorted.add`, `AreSorted.remove`: changes keep sets sorted.
- Theorem `setKey_inj`: models have different sets.
-/

namespace TwinStore.Cache

/-! ## Insertion -/

theorem mem_insertMember {member raw : String} {members : List String} :
    raw ∈ insertMember member members ↔ raw = member ∨ raw ∈ members := by
  induction members with
  | nil => simp [insertMember]
  | cons m rest ih =>
    rw [insertMember]
    split_ifs with hlt heq
    · rw [List.mem_cons]
    · rw [← heq]
      simp
    · rw [List.mem_cons, ih, List.mem_cons, or_left_comm]

theorem mem_foldl_insertMember {raw : String} (members new : List String) :
    raw ∈ new.foldl (fun set m => insertMember m set) members ↔ raw ∈ members ∨ raw ∈ new := by
  induction new generalizing members with
  | nil => simp
  | cons m new ih => rw [List.foldl_cons, ih, mem_insertMember, List.mem_cons, or_assoc, or_left_comm]

/-- A member is inserted in its place. -/
theorem pairwise_insertMember {members : List String} (h : members.Pairwise (· < ·))
    (member : String) : (insertMember member members).Pairwise (· < ·) := by
  induction members with
  | nil => exact List.pairwise_singleton _ _
  | cons m rest ih =>
    rw [insertMember]
    obtain ⟨hfirst, hrest⟩ := List.pairwise_cons.mp h
    split_ifs with hlt heq
    · refine List.pairwise_cons.mpr ⟨fun raw hraw => ?_, h⟩
      rcases List.mem_cons.mp hraw with rfl | hraw
      · exact hlt
      · exact hlt.trans (hfirst raw hraw)
    · exact h
    · refine List.pairwise_cons.mpr ⟨fun raw hraw => ?_, ih hrest⟩
      rcases mem_insertMember.mp hraw with rfl | hraw
      · exact lt_of_le_of_ne (not_lt.mp hlt) (Ne.symm heq)
      · exact hfirst raw hraw

theorem pairwise_foldl_insertMember {members : List String} (h : members.Pairwise (· < ·))
    (new : List String) :
    (new.foldl (fun set m => insertMember m set) members).Pairwise (· < ·) := by
  induction new generalizing members with
  | nil => exact h
  | cons m new ih => exact ih (pairwise_insertMember h m)

/-! ## Changes of the server -/

namespace Server

variable {server : Server} {key key' raw : String} {members : List String}

/-- The members after some were added to a set. -/
theorem mem_members_add : raw ∈ (server.add key members).members key' ↔
    raw ∈ server.members key' ∨ key' = key ∧ raw ∈ members := by
  by_cases hkey : key' = key
  · subst hkey
    rw [add, Server.members, Entries.get?_set_self, Option.getD_some, mem_foldl_insertMember]
    simp
  · rw [add, Server.members, Entries.get?_set_of_ne _ _ hkey, Server.members]
    simp [hkey]

/-- The members after some were removed from a set. -/
theorem mem_members_remove : raw ∈ (server.remove key members).members key' ↔
    raw ∈ server.members key' ∧ ¬(key' = key ∧ raw ∈ members) := by
  by_cases hkey : key' = key
  · subst hkey
    rw [remove, Server.members, Entries.get?_set_self, Option.getD_some, List.mem_filter]
    simp
  · rw [remove, Server.members, Entries.get?_set_of_ne _ _ hkey, Server.members]
    simp [hkey]

end Server

/-! ## Sorted sets -/

/-- Whether each set is sorted and without repetition. -/
def AreSorted (sets : Entries (List String)) : Prop :=
  ∀ key, ((Entries.get? sets key).getD []).Pairwise (· < ·)

namespace AreSorted

variable {server : Server} {key : String} {sets : Entries (List String)}

theorem empty : AreSorted [] := fun _ => List.Pairwise.nil

/-- A sorted set has no member twice. -/
theorem nodup (h : AreSorted sets) (key : String) : ((Entries.get? sets key).getD []).Nodup :=
  (h key).imp fun hlt => hlt.ne

/-- Adding members keeps sets sorted. -/
theorem add (h : AreSorted server.sets) (key : String) (members : List String) :
    AreSorted (server.add key members).sets := by
  intro key'
  rw [Server.add]
  by_cases hkey : key' = key
  · subst hkey
    rw [Entries.get?_set_self, Option.getD_some]
    exact pairwise_foldl_insertMember (h key') members
  · rw [Entries.get?_set_of_ne _ _ hkey]
    exact h key'

/-- Removing members keeps sets sorted. -/
theorem remove (h : AreSorted server.sets) (key : String) (members : List String) :
    AreSorted (server.remove key members).sets := by
  intro key'
  rw [Server.remove]
  by_cases hkey : key' = key
  · subst hkey
    rw [Entries.get?_set_self, Option.getD_some]
    exact (h key').filter _
  · rw [Entries.get?_set_of_ne _ _ hkey]
    exact h key'

end AreSorted

/-- Models have different sets. -/
theorem setKey_inj {d : Deployment} {name name' : String} :
    setKey d name = setKey d name' ↔ name = name' := by
  refine ⟨fun h => ?_, congrArg _⟩
  have hchars := congrArg String.toList h
  rw [setKey, setKey, String.toList_append, String.toList_append] at hchars
  exact String.toList_injective (List.append_cancel_left hchars)

end TwinStore.Cache
