import OtelFleet.Lib.LinkedList
import OtelFleet.Lib.Recency

-- The cache for the results of validations, as a map into a linked list. The model of
-- `Authenticate` keeps an entry along with the RPC that it stems from, hence the type of entries
-- is left open.
namespace Tenantauth

structure LruItem (α : Type) where
  key : String
  entry : α
deriving DecidableEq

structure KeyCache (α : Type) where
  maxEntries : Int
  ll : LinkedList (LruItem α)
  items : List (String × Nat)

variable {α : Type}

def newKeyCache (maxEntries : Int) : KeyCache α :=
  { maxEntries := maxEntries, ll := .empty, items := [] }

namespace KeyCache

def get (c : KeyCache α) (hash : String) : Option α × KeyCache α :=
  match c.items.lookup hash with
  | none => (none, c)
  | some el =>
    let ll := c.ll.moveToFront el
    ((ll.value el).map (·.entry), { c with ll := ll })

def len (c : KeyCache α) : Nat :=
  c.items.length

def evict (c : KeyCache α) : KeyCache α :=
  if c.maxEntries < c.len then
    match _ : c.ll.back with
    | none => c
    | some oldest =>
      evict { c with ll := c.ll.remove oldest.1, items := Lru.others oldest.2.key c.items }
  else c
termination_by c.ll.order.length
decreasing_by
  exact LinkedList.length_remove_lt ‹_›

def put (c : KeyCache α) (hash : String) (e : α) : KeyCache α :=
  match c.items.lookup hash with
  | some el => { c with ll := (c.ll.modify el ({ · with entry := e })).moveToFront el }
  | none =>
    let r := c.ll.pushFront { key := hash, entry := e }
    evict { c with ll := r.2, items := (hash, r.1) :: Lru.others hash c.items }

def call (c : KeyCache α) : Lru.Call String α → KeyCache α
  | .get hash => (c.get hash).2
  | .put hash e => c.put hash e

def run (maxEntries : Int) (calls : List (Lru.Call String α)) : KeyCache α :=
  calls.foldl call (newKeyCache maxEntries)

end KeyCache
end Tenantauth
