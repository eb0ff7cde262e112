import TxLens.Envelope
/-!
# Registries of message types

A registry maps suffixes of type names to values. A suffix of a name begins at the name's start or
right after a dot; among the registered suffixes of a name the longest is the one that counts.
-/

namespace TxLens

/-- What stands after each dot of a name, in order. -/
def dotTails : List Char → List (List Char)
  | [] => []
  | c :: cs => if c = '.' then cs :: dotTails cs else dotTails cs

/-- The name itself and what stands after each of its dots: its suffixes from long to short. -/
def nameSuffixes (name : List Char) : List (List Char) := name :: dotTails name

/-- Values under distinct keys. -/
structure Registry (α : Type) where
  entries : List (String × α)
  nodup : (entries.map Prod.fst).Nodup

namespace Registry

variable {α : Type}

def empty : Registry α := ⟨[], List.nodup_nil⟩

def size (r : Registry α) : Nat := r.entries.length

def isEmpty (r : Registry α) : Bool := r.entries.isEmpty

/-- The value under exactly this key. -/
def get? (r : Registry α) (key : String) : Option α := r.entries.lookup key

/-- Puts a value under a key, in place of the one that was there. -/
def insert (r : Registry α) (key : String) (a : α) : Registry α where
  entries := (key, a) :: r.entries.filter fun e => e.1 != key
  nodup := by
    rw [List.map_cons, List.nodup_cons]
    refine ⟨fun h => ?_, r.nodup.sublist (List.filter_sublist.map _)⟩
    obtain ⟨e, he, hk⟩ := List.mem_map.1 h
    have := (List.mem_filter.1 he).2
    simp only [bne_iff_ne, ne_eq] at this
    exact this hk

/-- Puts values under keys one after the other. -/
def ofList (entries : List (String × α)) : Registry α :=
  entries.foldl (fun r e => r.insert e.1 e.2) empty

/-- The value under the longest registered suffix of a type URL's name. -/
def lookup? (r : Registry α) (typeUrl : String) : Option α :=
  (nameSuffixes (Envelope.afterSlash typeUrl.toList)).findSome? fun s => r.get? (String.ofList s)

def isKnown (r : Registry α) (typeUrl : String) : Bool := (r.lookup? typeUrl).isSome

end Registry

end TxLens
