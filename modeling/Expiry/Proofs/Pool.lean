import Mathlib.Data.List.Perm.Subperm
import Expiry.Pool

/-!
# Sound pools

A pool is sound when its free list holds exactly the empty slots, each of them once, and its count
is that of the other slots. Putting a node in and taking one out keep a pool sound, and neither can
fail: the slot for a new node is empty, and an occupied slot is always counted.

What operations on lanes do to a pool is to mend links. A pool with mended links has the same timers
in the same slots, so it is sound if the one before was.

## Main definitions

* `Pool.Sound` — the free list and the count agree with the slots
* `Pool.Relinked` — another pool differs in the links of some nodes only

## Main results

* `Pool.Sound.insert`, `Pool.Sound.remove` — both operations keep a pool sound
* `Pool.get?_insert` — a new node goes into an empty slot and leaves all others alone
* `Pool.Relinked.sound` — mending links keeps a pool sound
-/

namespace Expiry.Pool

variable {p q r : Pool} {slot slot' : Slot} {node : Node}

/-- The free list holds the empty slots, each once, and the count is that of the others. -/
structure Sound (p : Pool) : Prop where
  free_nodup : p.free.Nodup
  mem_free : ∀ slot, slot ∈ p.free ↔ slot < p.cells.size ∧ p.get? slot = none
  live_add_free : p.live + p.free.length = p.cells.size

namespace Sound

theorem empty : Pool.empty.Sound where
  free_nodup := List.nodup_nil
  mem_free slot := by simp [Pool.empty]
  live_add_free := rfl

/-- An occupied slot is counted: the free slots alone do not fill the pool. -/
theorem live_pos (h : p.Sound) (occupied : p.get? slot = some node) : 0 < p.live := by
  have hfresh : slot ∉ p.free := by
    intro hmem
    rw [((h.mem_free slot).mp hmem).2] at occupied
    cases occupied
  -- This slot and the free ones are different slots of the pool, so there are fewer free ones.
  have hsub : slot :: p.free ⊆ List.range p.cells.size := by
    intro s hs
    rcases List.mem_cons.mp hs with rfl | hs
    · exact List.mem_range.mpr (lt_size_of_get? occupied)
    · exact List.mem_range.mpr ((h.mem_free s).mp hs).1
  have hlength : (slot :: p.free).length ≤ (List.range p.cells.size).length :=
    ((List.nodup_cons.mpr ⟨hfresh, h.free_nodup⟩).subperm hsub).length_le
  have hlive := h.live_add_free
  simp only [List.length_cons, List.length_range] at hlength
  omega

end Sound

/-! ### Putting a node in -/

theorem get?_insert_fst (h : p.Sound) (node : Node) : p.get? (p.insert node).1 = none := by
  unfold insert
  cases hfree : p.free with
  | nil => simp [get?]
  | cons slot free => exact ((h.mem_free slot).mp (by simp [hfree])).2

@[simp] theorem live_insert (p : Pool) (node : Node) : (p.insert node).2.live = p.live + 1 := by
  unfold insert
  cases p.free <;> rfl

/-- A new node goes into its slot, and every other slot stays as it was. -/
theorem get?_insert (h : p.Sound) :
    (p.insert node).2.get? slot' =
      if (p.insert node).1 = slot' then some node else p.get? slot' := by
  unfold insert
  cases hfree : p.free with
  | nil =>
    simp only [get?, Array.getElem?_push, eq_comm (a := slot')]
    split <;> rfl
  | cons slot free =>
    have hlt : slot < p.cells.size := ((h.mem_free slot).mp (by simp [hfree])).1
    simp only [get?, Array.getElem?_setIfInBounds, hlt]
    split <;> rfl

theorem Sound.insert (h : p.Sound) (node : Node) : (p.insert node).2.Sound := by
  have hget : ∀ slot, (p.insert node).2.get? slot =
      if (p.insert node).1 = slot then some node else p.get? slot := fun slot => get?_insert h
  have hlive := h.live_add_free
  unfold Pool.insert at hget ⊢
  cases hfree : p.free with
  | nil =>
    simp only [hfree, List.length_nil] at hget hlive ⊢
    refine ⟨List.nodup_nil, fun slot => ?_, by simpa using hlive⟩
    have hmem := h.mem_free slot
    simp only [hfree, List.not_mem_nil, false_iff, not_and] at hmem
    simp only [List.not_mem_nil, false_iff, not_and, Array.size_push, hget]
    intro hlt
    split
    · simp
    · next hslot => exact hmem (Nat.lt_of_le_of_ne (Nat.lt_succ_iff.mp hlt) (Ne.symm hslot))
  | cons taken free =>
    obtain ⟨hnotMem, hnodup⟩ := List.nodup_cons.mp (hfree ▸ h.free_nodup)
    simp only [hfree, List.length_cons] at hget hlive ⊢
    refine ⟨hnodup, fun slot => ?_, by simp only [Array.size_setIfInBounds]; omega⟩
    have hmem := h.mem_free slot
    rw [hfree, List.mem_cons] at hmem
    simp only [Array.size_setIfInBounds, hget]
    by_cases htaken : taken = slot
    · subst htaken
      simpa using hnotMem
    · simpa [htaken, Ne.symm htaken] using hmem

/-! ### Taking a node out -/

/-- Taking a node out of an occupied slot of a sound pool succeeds and frees the slot. -/
theorem Sound.remove (h : p.Sound) (occupied : p.get? slot = some node) :
    ∃ q, p.remove slot = .ok (node, q) ∧ q.Sound ∧ q.live + 1 = p.live ∧
      ∀ slot', q.get? slot' = if slot = slot' then none else p.get? slot' := by
  obtain ⟨live, hlive⟩ := Nat.exists_eq_succ_of_ne_zero (Nat.ne_of_gt (h.live_pos occupied))
  have hremove : p.remove slot =
      .ok (node, ⟨p.cells.setIfInBounds slot none, slot :: p.free, live⟩) :=
    remove_eq_ok_iff.mpr ⟨occupied, live, hlive, rfl⟩
  have hget := fun slot' : Slot => @get?_remove _ _ slot slot' node hremove
  have hfresh : slot ∉ p.free := by
    intro hmem
    rw [((h.mem_free slot).mp hmem).2] at occupied
    cases occupied
  refine ⟨_, hremove, ⟨List.nodup_cons.mpr ⟨hfresh, h.free_nodup⟩, fun slot' => ?_, ?_⟩,
    hlive.symm, hget⟩
  · simp only [List.mem_cons, h.mem_free, hget, Array.size_setIfInBounds]
    by_cases hslot : slot = slot'
    · subst hslot
      simp [lt_size_of_get? occupied]
    · simp [hslot, Ne.symm hslot]
  · have := h.live_add_free
    simp only [List.length_cons, Array.size_setIfInBounds]
    omega

/-! ### Mending links -/

/-- The pool `q` differs from `p` in nothing but the links of nodes in `slots`. -/
structure Relinked (slots : List Slot) (p q : Pool) : Prop where
  free : q.free = p.free
  live : q.live = p.live
  size : q.cells.size = p.cells.size
  timer : ∀ slot, (q.get? slot).map Node.toTimer = (p.get? slot).map Node.toTimer
  other : ∀ slot ∉ slots, q.get? slot = p.get? slot

namespace Relinked

variable {slots slots' : List Slot}

theorem refl (slots : List Slot) (p : Pool) : Relinked slots p p :=
  ⟨rfl, rfl, rfl, fun _ => rfl, fun _ _ => rfl⟩

theorem trans (h : Relinked slots p q) (h' : Relinked slots q r) : Relinked slots p r where
  free := h'.free.trans h.free
  live := h'.live.trans h.live
  size := h'.size.trans h.size
  timer slot := (h'.timer slot).trans (h.timer slot)
  other slot hslot := (h'.other slot hslot).trans (h.other slot hslot)

theorem mono (h : Relinked slots p q) (within : slots ⊆ slots') : Relinked slots' p q :=
  { h with other := fun slot hslot => h.other slot fun hmem => hslot (within hmem) }

theorem get?_eq_none_iff (h : Relinked slots p q) : q.get? slot = none ↔ p.get? slot = none := by
  have htimer := h.timer slot
  rw [← Option.map_eq_none_iff (f := Node.toTimer), htimer, Option.map_eq_none_iff]

theorem sound (h : Relinked slots p q) (hp : p.Sound) : q.Sound where
  free_nodup := h.free ▸ hp.free_nodup
  mem_free slot := by rw [h.free, h.size, h.get?_eq_none_iff]; exact hp.mem_free slot
  live_add_free := by rw [h.free, h.live, h.size]; exact hp.live_add_free

end Relinked

/-- Changing the links of a node in an occupied slot succeeds, and changes nothing else. -/
theorem exists_modify (occupied : p.get? slot = some node) (change : Node → Node)
    (links : (change node).toTimer = node.toTimer) :
    ∃ q, p.modify slot change = .ok q ∧ q.get? slot = some (change node) ∧
      Relinked [slot] p q := by
  have hmodify : p.modify slot change =
      .ok { p with cells := p.cells.setIfInBounds slot (some (change node)) } :=
    modify_eq_ok_iff.mpr ⟨node, occupied, rfl⟩
  have hget := fun slot' : Slot => @get?_modify _ _ slot slot' change hmodify
  refine ⟨_, hmodify, by rw [hget, if_pos rfl, occupied]; rfl, rfl, rfl, by simp, fun slot' => ?_,
    fun slot' hslot => ?_⟩
  · rw [hget]
    split
    · next hslot => rw [← hslot, occupied]; simp [links]
    · rfl
  · rw [hget, if_neg fun heq => hslot (List.mem_singleton.mpr heq.symm)]

end Expiry.Pool
