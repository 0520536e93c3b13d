import Std.Data.TreeMap
import Expiry.Bytes

/-!
# Maps from byte strings

An ordered finite map whose keys are byte strings. Beside looking up, replacing and erasing, it can
add a value with a rule for what to keep when the key is taken, list the entries whose key starts
with given bytes, and be swept: every entry is visited once, in the order of the keys, and the visit
decides whether the entry stays and with which value.

## Main definitions

* `ByteMap` — a tree map with keys in the order of `Bytes`
* `ByteMap.add` — add a value, settling a conflict with the present one
* `ByteMap.take` — erase a key and hand out its value
* `ByteMap.startingWith` — the entries under a common beginning
* `ByteMap.sweepM` — visit every entry, keeping or dropping it

## Main results

* `ByteMap.getElem?_add` — adding a value changes what is stored under its own key only
* `ByteMap.sweepM_eq` — a sweep is a fold over the list of the entries
-/

namespace Expiry

/-- A finite map from byte strings, in the order of its keys. -/
abbrev ByteMap (β : Type) := Std.TreeMap Bytes β

namespace ByteMap

variable {β σ : Type}

/-- Store `incoming` under `key`. If the key is taken, `settle existing incoming` is stored instead;
the first component says whether it was. -/
def add (t : ByteMap β) (key : Bytes) (incoming : β) (settle : β → β → β) : Bool × ByteMap β :=
  match t[key]? with
  | some existing => (true, t.insert key (settle existing incoming))
  | none => (false, t.insert key incoming)

theorem getElem?_add {t : ByteMap β} {key key' : Bytes} {incoming : β} {settle : β → β → β} :
    (t.add key incoming settle).2[key']? =
      if key = key' then some (t[key]?.elim incoming (settle · incoming)) else t[key']? := by
  unfold add
  cases h : t[key]? <;> simp [Std.TreeMap.getElem?_insert]

theorem getElem?_of_mem_toList {t : ByteMap β} {entry : Bytes × β} (h : entry ∈ t.toList) :
    t[entry.1]? = some entry.2 :=
  Std.TreeMap.mem_toList_iff_getElem?_eq_some.mp h

theorem nodup_map_fst_toList (t : ByteMap β) : (t.toList.map Prod.fst).Nodup := by
  rw [Std.TreeMap.map_fst_toList_eq_keys]
  exact Std.TreeMap.nodup_keys

/-- Erase `key`, handing out the value that was stored under it. -/
def take (t : ByteMap β) (key : Bytes) : Option β × ByteMap β := (t[key]?, t.erase key)

/-- The entries whose key starts with `head`, in the order of the keys. They form one run of the
map, which begins at the first key not before `head`. -/
def startingWith (t : ByteMap β) (head : Bytes) : List (Bytes × β) :=
  t[head...*].toList.takeWhile fun entry => head.isPrefixOf entry.1

/-- Add what stays of a visited entry, if it does, to what has stayed so far. -/
def addStaying (kept : ByteMap β) (key : Bytes) (stays : Option β) : ByteMap β :=
  match stays with
  | some value => kept.insert key value
  | none => kept

theorem getElem?_addStaying {kept : ByteMap β} {key : Bytes} (fresh : kept[key]? = none)
    (stays : Option β) (key' : Bytes) :
    (kept.addStaying key stays)[key']? = if key = key' then stays else kept[key']? := by
  cases stays with
  | some value => simp [addStaying, Std.TreeMap.getElem?_insert]
  | none =>
    by_cases heq : key = key'
    · rw [if_pos heq, ← heq, addStaying, fresh]
    · rw [if_neg heq, addStaying]

/-- Visit every entry once, in the order of the keys, with a state that goes from visit to visit.
An entry stays with the value that its visit returns, and is dropped if that is `none`. -/
def sweepM {m : Type → Type} [Monad m] (t : ByteMap β) (visit : σ → Bytes → β → m (σ × Option β))
    (start : σ) : m (σ × ByteMap β) :=
  t.foldlM (fun (state, kept) key value => do
    let (state, stays) ← visit state key value
    return (state, kept.addStaying key stays)) (start, ∅)

theorem sweepM_eq {m : Type → Type} [Monad m] [LawfulMonad m] (t : ByteMap β)
    (visit : σ → Bytes → β → m (σ × Option β)) (start : σ) :
    t.sweepM visit start = t.toList.foldlM (fun acc entry => do
      let (state, stays) ← visit acc.1 entry.1 entry.2
      return (state, acc.2.addStaying entry.1 stays)) (start, (∅ : ByteMap β)) :=
  Std.TreeMap.foldlM_eq_foldlM_toList

end ByteMap

end Expiry
