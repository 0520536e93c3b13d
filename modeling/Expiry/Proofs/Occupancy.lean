import Std.Data.TreeMap
import Expiry.Proofs.Pool

/-!
# Who is in a pool

A tally of what is done with a pool since it was last cleared: which node was stored last under each
slot that is in use, which slots have been freed and not handed out again, and how many nodes there
have been at once at most. It does not decide anything. When a node comes in, it notes the slot that
the pool has handed out, whichever that is.

A pool gives away nothing that is in use. It hands out the slot that was freed last, and opens a new
one only if none is free, so it never has more slots than there have been nodes at once.

## Main definitions

* `Pool.Tally` — what is in use, what has been freed, and how many there have been at once
* `Pool.Used` — a pool made by uses that succeeded, with its tally
* `Pool.Tallied` — the pool looks as the tally says

## Main results

* `Pool.Tallied.insert`, `Pool.Tallied.modify`, `Pool.Tallied.remove` — each use keeps to the tally
* `Pool.Used.exclusive_minimal` — no slot is given away twice, and there are no more than needed
-/

namespace Expiry.Pool

/-- What has been done with a pool since it was last cleared. -/
structure Tally where
  /-- The slots in use, each with the node that was stored there last. -/
  nodes : Std.TreeMap Slot Node := ∅
  /-- The slots that were freed and not handed out since, the one freed last in front. -/
  freed : List Slot := []
  /-- The most nodes that there have been at once. -/
  peak : Nat := 0

namespace Tally

/-- A node has come in, and `slot` was handed out for it. -/
def insert (t : Tally) (slot : Slot) (node : Node) : Tally :=
  let nodes := t.nodes.insert slot node
  { nodes, freed := t.freed.erase slot, peak := max t.peak nodes.size }

/-- The node in `slot` has been changed. -/
def modify (t : Tally) (slot : Slot) (change : Node → Node) : Tally :=
  { t with nodes := t.nodes.modify slot change }

/-- The node in `slot` has been taken out. -/
def remove (t : Tally) (slot : Slot) : Tally :=
  { t with nodes := t.nodes.erase slot, freed := slot :: t.freed }

end Tally

variable {p q : Pool} {t : Tally} {slot : Slot} {node : Node} {change : Node → Node}

/-- The pool is what uses have made of the empty one, and they have been tallied. -/
inductive Used : Pool → Tally → Prop
  | empty : Used .empty {}
  | insert {p : Pool} {t : Tally} (node : Node) (used : Used p t) :
    Used (p.insert node).2 (t.insert (p.insert node).1 node)
  | modify {p q : Pool} {t : Tally} (slot : Slot) (change : Node → Node) (used : Used p t)
    (done : p.modify slot change = .ok q) : Used q (t.modify slot change)
  | remove {p q : Pool} {t : Tally} {node : Node} (slot : Slot) (used : Used p t)
    (done : p.remove slot = .ok (node, q)) : Used q (t.remove slot)
  | clear {p : Pool} {t : Tally} (used : Used p t) : Used .empty {}

/-! ### Slots that are not in use -/

/-- Nothing can be done with a slot that is not occupied. -/
theorem stale_of_get?_eq_none (vacant : p.get? slot = none) :
    p.read slot = .error (.staleSlot slot) ∧
      (∀ change, p.modify slot change = .error (.staleSlot slot)) ∧
      p.remove slot = .error (.staleSlot slot) := by
  have hread : p.read slot = .error (.staleSlot slot) := by
    rw [read, vacant]
  refine ⟨hread, fun change => ?_, ?_⟩
  · rw [Pool.modify, hread]
    rfl
  · rw [Pool.remove, hread]
    rfl

/-- Changing a node in place occupies no slot and frees none. -/
theorem Sound.modify (h : p.Sound) (done : p.modify slot change = .ok q) : q.Sound := by
  have hget := fun slot' : Slot => @get?_modify _ _ _ slot' _ done
  obtain ⟨node, hnode, rfl⟩ := modify_eq_ok_iff.mp done
  refine ⟨h.free_nodup, fun slot' => ?_, ?_⟩
  · rw [h.mem_free, hget, Array.size_setIfInBounds]
    split
    · next heq => simp [← heq, hnode]
    · rfl
  · rw [Array.size_setIfInBounds]
    exact h.live_add_free

/-! ### Pools that look as the tally says -/

/-- The pool is sound, and its slots, its free list and its count are those of the tally. -/
structure Tallied (p : Pool) (t : Tally) : Prop where
  sound : p.Sound
  get? : ∀ slot, p.get? slot = t.nodes[slot]?
  free : p.free = t.freed
  live : p.live = t.nodes.size
  size : p.cells.size = t.peak

namespace Tallied

theorem empty : Tallied .empty {} where
  sound := Sound.empty
  get? _ := Std.TreeMap.getElem?_emptyc.symm
  free := rfl
  live := rfl
  size := rfl

theorem mem_iff (h : Tallied p t) : slot ∈ t.nodes ↔ ∃ node, p.get? slot = some node := by
  rw [Std.TreeMap.mem_iff_isSome_getElem?, ← h.get?, Option.isSome_iff_exists]

theorem not_mem_iff (h : Tallied p t) : slot ∉ t.nodes ↔ p.get? slot = none := by
  rw [h.mem_iff, ← Option.isSome_iff_exists, Option.not_isSome_iff_eq_none]

/-- The slot that a pool hands out is free. -/
theorem insert_fst_not_mem (h : Tallied p t) (node : Node) : (p.insert node).1 ∉ t.nodes :=
  h.not_mem_iff.mpr (get?_insert_fst h.sound node)

/-- It is the one freed last, or a new one. -/
theorem insert_fst (h : Tallied p t) (node : Node) :
    (p.insert node).1 = t.freed.headD p.cells.size := by
  rw [← h.free, Pool.insert]
  cases p.free <;> rfl

/-- There is one node more then. -/
theorem size_nodes_insert (h : Tallied p t) (node : Node) :
    (t.nodes.insert (p.insert node).1 node).size = t.nodes.size + 1 := by
  rw [Std.TreeMap.size_insert]
  exact if_neg (mt Std.TreeMap.contains_iff_mem.mp (h.insert_fst_not_mem node))

/-- A slot is opened only when every other slot is in use, so that there are more nodes then than
there have ever been. -/
theorem size_insert (h : Tallied p t) (node : Node) :
    (p.insert node).2.cells.size = max t.peak (t.nodes.size + 1) := by
  have hcount := h.sound.live_add_free
  rw [← h.size, ← h.live, Pool.insert]
  cases hfree : p.free with
  | nil =>
    -- All slots are in use, and the new one makes one more.
    rw [hfree, List.length_nil] at hcount
    rw [Array.size_push]
    omega
  | cons slot free =>
    -- A free slot leaves room below the peak.
    rw [hfree, List.length_cons] at hcount
    rw [Array.size_setIfInBounds]
    omega

protected theorem insert (h : Tallied p t) (node : Node) :
    Tallied (p.insert node).2 (t.insert (p.insert node).1 node) where
  sound := h.sound.insert node
  get? slot := by
    rw [get?_insert h.sound, Tally.insert, Std.TreeMap.getElem?_insert, h.get?]
    simp only [Std.LawfulEqOrd.compare_eq_iff_eq]
  free := by
    rw [Tally.insert, ← h.free, Pool.insert]
    cases p.free with
    | nil => rfl
    | cons slot free => exact (List.erase_cons_head slot free).symm
  live := by rw [live_insert, h.live, Tally.insert, h.size_nodes_insert]
  size := by rw [h.size_insert, Tally.insert, h.size_nodes_insert]

protected theorem modify (h : Tallied p t) (done : p.modify slot change = .ok q) :
    Tallied q (t.modify slot change) := by
  have hget := fun slot' : Slot => @get?_modify _ _ _ slot' _ done
  have hsound := h.sound.modify done
  obtain ⟨node, hnode, rfl⟩ := modify_eq_ok_iff.mp done
  refine ⟨hsound, fun slot' => ?_, h.free, ?_, Array.size_setIfInBounds.trans h.size⟩
  · rw [hget, Tally.modify, Std.TreeMap.getElem?_modify, h.get?, h.get?]
    simp only [Std.LawfulEqOrd.compare_eq_iff_eq]
  · rw [Tally.modify, Std.TreeMap.size_modify]
    exact h.live

protected theorem remove (h : Tallied p t) (done : p.remove slot = .ok (node, q)) :
    Tallied q (t.remove slot) := by
  obtain ⟨hnode, live, hlive, hq⟩ := remove_eq_ok_iff.mp done
  obtain ⟨q', hremove, hsound, -, hget⟩ := h.sound.remove hnode
  obtain ⟨-, rfl⟩ := Prod.mk.inj (Except.ok.inj (done.symm.trans hremove))
  have hused : slot ∈ t.nodes := h.mem_iff.mpr ⟨node, hnode⟩
  refine ⟨hsound, fun slot' => ?_, ?_, ?_, ?_⟩
  · rw [hget, Tally.remove, Std.TreeMap.getElem?_erase, h.get?]
    simp only [Std.LawfulEqOrd.compare_eq_iff_eq]
  · rw [hq, Tally.remove, h.free]
  · rw [Tally.remove, Std.TreeMap.size_erase, if_pos (Std.TreeMap.contains_iff_mem.mpr hused),
      ← h.live, hlive, hq]
    rfl
  · rw [hq]
    exact Array.size_setIfInBounds.trans h.size

end Tallied

/-- Whatever a pool has been used for, it looks as the tally says. -/
theorem Used.tallied (used : Used p t) : Tallied p t := by
  induction used with
  | empty => exact Tallied.empty
  | insert node _ ih => exact ih.insert node
  | modify slot change _ done ih => exact ih.modify done
  | remove slot _ done ih => exact ih.remove done
  | clear _ _ => exact Tallied.empty

/-! ### No slot twice, and no more than needed -/

/-- However a pool has been used since it was last cleared: its free list holds the empty slots,
each once, and its count is that of the others. A slot in use has the node that was stored there
last, and anything can be done with it; with any other slot nothing can be done. The slot handed out
next is not in use: it is the one freed last, or a new one if none is free, and the nodes that are
in the pool are not touched. There are as many slots as there have been nodes at once, so that all
of them are below that number. -/
theorem Used.exclusive_minimal (used : Used p t) :
    (p.free = t.freed ∧ p.free.Nodup ∧
      ∀ slot, slot ∈ p.free ↔ slot < p.cells.size ∧ p.get? slot = none) ∧
    (p.live = t.nodes.size ∧ p.live + p.free.length = p.cells.size ∧ p.cells.size = t.peak) ∧
    (∀ slot node, t.nodes[slot]? = some node → slot < t.peak ∧ p.read slot = .ok node ∧
      (∀ change, ∃ q, p.modify slot change = .ok q) ∧ ∃ q, p.remove slot = .ok (node, q)) ∧
    (∀ slot, t.nodes[slot]? = none → p.get? slot = none ∧
      p.read slot = .error (.staleSlot slot) ∧
      (∀ change, p.modify slot change = .error (.staleSlot slot)) ∧
      p.remove slot = .error (.staleSlot slot)) ∧
    ∀ node, (p.insert node).1 ∉ t.nodes ∧ (p.insert node).1 = t.freed.headD p.cells.size ∧
      (p.insert node).1 < (t.insert (p.insert node).1 node).peak ∧
      ∀ slot ∈ t.nodes, (p.insert node).2.read slot = p.read slot := by
  have h := used.tallied
  refine ⟨⟨h.free, h.sound.free_nodup, h.sound.mem_free⟩,
    ⟨h.live, h.sound.live_add_free, h.size⟩, fun slot node hnode => ?_, fun slot hnone => ?_,
    fun node => ?_⟩
  · rw [← h.get?] at hnode
    obtain ⟨q, hremove, -⟩ := h.sound.remove hnode
    refine ⟨h.size ▸ lt_size_of_get? hnode, read_eq_ok_iff.mpr hnode, fun change => ?_, q, hremove⟩
    exact ⟨_, modify_eq_ok_iff.mpr ⟨node, hnode, rfl⟩⟩
  · rw [← h.get?] at hnone
    exact ⟨hnone, stale_of_get?_eq_none hnone⟩
  · have hfresh := h.insert_fst_not_mem node
    have hstored : (p.insert node).2.get? (p.insert node).1 = some node := by
      rw [get?_insert h.sound, if_pos rfl]
    refine ⟨hfresh, h.insert_fst node, (h.insert node).size ▸ lt_size_of_get? hstored, ?_⟩
    intro slot hslot
    rw [read, get?_insert h.sound, if_neg (ne_of_mem_of_not_mem hslot hfresh).symm, read]

/-- Three nodes are put in and cleared away; then two are put in, the first is changed, the second
is taken out, and a third one comes for it. That makes two slots, and not three. When the first is
taken out as well, nothing can be read there, and the next node gets its slot. -/
theorem Used.exclusive_minimal_reused : ∃ (p : Pool) (t : Tally), Used p t ∧ t.nodes.size = 1 ∧
    p.cells.size = 2 ∧ (∃ node, p.read 1 = .ok node) ∧ p.read 0 = .error (.staleSlot 0) ∧
    ∀ node, (p.insert node).1 = 0 := by
  let node : Node := { id := [97], ttl := 5, deadline := 5 }
  have hcleared := (((Used.empty.insert node).insert node).insert node).clear
  have hchanged := ((hcleared.insert node).insert node).modify 0 (·.withNext (some 1)) rfl
  have hback := (hchanged.remove 1 rfl).insert node
  have hgone := hback.remove 0 rfl
  obtain ⟨-, ⟨-, -, hsize⟩, hused, hstale, hnext⟩ := hgone.exclusive_minimal
  refine ⟨_, _, hgone, ?_, hsize, ⟨_, (hused 1 node ?_).2.1⟩, (hstale 0 ?_).2.1, ?_⟩
  · decide +kernel
  · decide +kernel
  · decide +kernel
  · intro other
    exact (hnext other).2.1

end Expiry.Pool
