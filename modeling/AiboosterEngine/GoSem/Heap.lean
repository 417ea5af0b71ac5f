import Mathlib.Order.Lattice

/-!
# `container/heap`

The heap of Go's standard library, as operations on the slice that holds it.
`Less` compares keys. Which of several elements of the least key is on top
depends on the swaps, so these are the library's own.
-/

namespace GoSem.Heap

open List Array

section
variable {α κ : Type} [LinearOrder κ] (key : α → κ)

def parent (i : Nat) : Nat := (i - 1) / 2

theorem parent_lt {i : Nat} (h : 0 < i) : parent i < i := by
  unfold parent
  omega

/-- `up`: an element rises while it is less than its parent. -/
def up (h : Array α) (j : Nat) : Array α :=
  if bounds : 0 < j ∧ j < h.size then
    have below : parent j < h.size := Nat.lt_trans (parent_lt bounds.1) bounds.2
    have inside : j < h.size := bounds.2
    if key h[j] < key h[parent j] then up (h.swap (parent j) j) (parent j) else h
  else h
termination_by j
decreasing_by exact parent_lt bounds.1

/-- The lesser child of `i` among the first `n` elements; the left one when they are level. -/
def lesserChild (h : Array α) (i n : Nat) (left : 2 * i + 1 < n) (size : n ≤ h.size) : Nat :=
  if right : 2 * i + 2 < n then
    have inside : 2 * i + 2 < h.size := Nat.lt_of_lt_of_le right size
    have inside' : 2 * i + 1 < h.size := Nat.lt_of_lt_of_le left size
    if key h[2 * i + 2] < key h[2 * i + 1] then 2 * i + 2 else 2 * i + 1
  else 2 * i + 1

variable (h : Array α) (d : α) (i n : Nat)

theorem lesserChild_range (left : 2 * i + 1 < n) (size : n ≤ h.size) :
    lesserChild key h i n left size < n ∧
      (lesserChild key h i n left size = 2 * i + 1 ∨
        lesserChild key h i n left size = 2 * i + 2) := by
  unfold lesserChild
  split
  · simp only
    split <;> omega
  · omega

/-- `down`: an element sinks in the first `n` while a child is less. -/
def down (h : Array α) (i n : Nat) : Array α :=
  if bounds : 2 * i + 1 < n ∧ n ≤ h.size then
    let j := lesserChild key h i n bounds.1 bounds.2
    have range := lesserChild_range key h i n bounds.1 bounds.2
    have inside : j < h.size := Nat.lt_of_lt_of_le range.1 bounds.2
    have inside' : i < h.size := by omega
    if key h[j] < key h[i] then down (h.swap i j) j n else h
  else h
termination_by n - i
decreasing_by
  have := lesserChild_range key h i n bounds.1 bounds.2
  omega

/-- `heap.Push`. -/
def push (h : Array α) (x : α) : Array α := up key (h.push x) h.size

/-- `heap.Pop`: the first element and the last change places, the first sinks among the
others, the last is taken off. -/
def pop (h : Array α) : Option (α × Array α) :=
  if nonempty : 0 < h.size then
    let h := down key (h.swap 0 (h.size - 1)) 0 (h.size - 1)
    h.back?.map fun x => (x, h.pop)
  else none

/-- The first `n` places are in order: no place is less than its parent. -/
def Ordered (g : Nat → κ) (n : Nat) : Prop :=
  ∀ c, 0 < c → c < n → g (parent c) ≤ g c

/-- In order but for place `j`, which may be less than its parent. -/
structure UpOrder (g : Nat → κ) (n j : Nat) : Prop where
  off : ∀ c, 0 < c → c < n → c ≠ j → g (parent c) ≤ g c
  grand : ∀ c, 0 < c → c < n → parent c = j → 0 < j → g (parent j) ≤ g c

/-- In order but for place `i`, which may be greater than its children. -/
structure DownOrder (g : Nat → κ) (n i : Nat) : Prop where
  off : ∀ c, 0 < c → c < n → parent c ≠ i → g (parent c) ≤ g c
  grand : ∀ c, 0 < c → c < n → parent c = i → 0 < i → g (parent i) ≤ g c

def swapAt (g : Nat → κ) (i j : Nat) : Nat → κ :=
  fun k => if k = i then g j else if k = j then g i else g k

omit [LinearOrder κ] in
@[simp] theorem swapAt_left (g : Nat → κ) (i j : Nat) : swapAt g i j i = g j := if_pos rfl

omit [LinearOrder κ] in
@[simp] theorem swapAt_right (g : Nat → κ) (i j : Nat) : swapAt g i j j = g i := by
  unfold swapAt
  split
  · rename_i same
    rw [same]
  · rw [if_pos rfl]

omit [LinearOrder κ] in
theorem swapAt_other (g : Nat → κ) {i j k : Nat} (hi : k ≠ i) (hj : k ≠ j) :
    swapAt g i j k = g k := by
  unfold swapAt
  rw [if_neg hi, if_neg hj]

section
variable {key} {g : Nat → κ} {n i j : Nat}

theorem UpOrder.swap (o : UpOrder g n j) (pos : 0 < j) (inside : j < n)
    (less : g j < g (parent j)) : UpOrder (swapAt g (parent j) j) n (parent j) := by
  have hp := parent_lt pos
  constructor
  · intro c hc hn hne
    by_cases hcj : c = j
    · subst hcj
      rw [swapAt_left, swapAt_right]
      exact le_of_lt less
    · rw [swapAt_other g hne hcj]
      by_cases hpj : parent c = j
      · rw [hpj, swapAt_right]
        exact o.grand c hc hn hpj pos
      · by_cases hpp : parent c = parent j
        · -- a sibling of `j`: above it now stands what was at `j`
          have := o.off c hc hn hcj
          rw [hpp] at this ⊢
          rw [swapAt_left]
          exact le_trans (le_of_lt less) this
        · rw [swapAt_other g hpp hpj]
          exact o.off c hc hn hcj
  · intro c hc hn hpar hpos
    have above := parent_lt hpos
    rw [swapAt_other g (by omega) (by omega)]
    have up := o.off (parent j) hpos (by omega) (by omega)
    by_cases hcj : c = j
    · subst hcj
      rw [swapAt_right]
      exact up
    · rw [swapAt_other g (by have := parent_lt hc; omega) hcj]
      have := o.off c hc hn hcj
      rw [hpar] at this
      exact le_trans up this

theorem UpOrder.stop (o : UpOrder g n j) (level : 0 < j → j < n → g (parent j) ≤ g j) :
    Ordered g n := by
  intro c hc hn
  by_cases hcj : c = j
  · subst hcj
    exact level hc hn
  · exact o.off c hc hn hcj

theorem DownOrder.swap (o : DownOrder g n i) (child : parent j = i) (pos : 0 < j) (inside : j < n)
    (lesser : ∀ c, 0 < c → c < n → parent c = i → g j ≤ g c) (less : g j < g i) :
    DownOrder (swapAt g i j) n j := by
  have hij : i < j := child ▸ parent_lt pos
  constructor
  · intro c hc hn hne
    by_cases hpi : parent c = i
    · rw [hpi, swapAt_left]
      by_cases hcj : c = j
      · subst hcj
        rw [swapAt_right]
        exact le_of_lt less
      · rw [swapAt_other g (by have := parent_lt hc; omega) hcj]
        exact lesser c hc hn hpi
    · rw [swapAt_other g hpi hne]
      by_cases hci : c = i
      · subst hci
        rw [swapAt_left]
        exact o.grand j pos inside child hc
      · rw [swapAt_other g hci (by rintro rfl; exact hpi child)]
        exact o.off c hc hn hpi
  · intro c hc hn hpar _
    have := parent_lt hc
    rw [child, swapAt_left, swapAt_other g (by omega) (by omega), ← hpar]
    exact o.off c hc hn (by omega)

theorem DownOrder.stop (o : DownOrder g n i)
    (level : ∀ c, 0 < c → c < n → parent c = i → g i ≤ g c) : Ordered g n := by
  intro c hc hn
  by_cases hpi : parent c = i
  · rw [hpi]
    exact level c hc hn hpi
  · exact o.off c hc hn hpi

theorem Ordered.root_le (o : Ordered g n) (c : Nat) (hn : c < n) : g 0 ≤ g c := by
  induction c using Nat.strongRecOn with
  | ind c ih =>
    by_cases hc : c = 0
    · rw [hc]
    · have pos : 0 < c := by omega
      have hp := parent_lt pos
      exact le_trans (ih (parent c) hp (by omega)) (o c pos hn)

end

theorem up_perm (j : Nat) : (up key h j).Perm h := by
  fun_induction up key h j with
  | case1 h j bounds below inside less ih => exact ih.trans (swap_perm ..)
  | case2 h j bounds below inside stop | case3 h j out => exact Perm.refl h

theorem down_perm : (down key h i n).Perm h := by
  fun_induction down key h i n with
  | case1 h i bounds j range inside inside' less ih => exact ih.trans (swap_perm ..)
  | case2 h i bounds j range inside inside' stop | case3 h i out => exact Perm.refl h

theorem push_perm (x : α) : (push key h x).toList.Perm (x :: h.toList) := by
  have all := perm_iff_toList_perm.mp (up_perm key (h.push x) h.size)
  refine all.trans ?_
  rw [toList_push]
  exact perm_append_singleton x h.toList

theorem up_size (j : Nat) : (up key h j).size = h.size :=
  (up_perm key h j).size_eq

theorem down_size : (down key h i n).size = h.size :=
  (down_perm key h i n).size_eq

/-- The key in a place; outside of the slice that of `d`. -/
def keyAt (d : α) (h : Array α) (i : Nat) : κ := key (h.getD i d)

def IsHeap (h : Array α) : Prop := ∀ d, Ordered (keyAt key d h) h.size

theorem getD_swap {i j : Nat} (hi : i < h.size) (hj : j < h.size) (k : Nat) :
    (h.swap i j).getD k d = if k = i then h.getD j d else if k = j then h.getD i d
      else h.getD k d := by
  simp only [getD_eq_getD_getElem?]
  by_cases hk : k < h.size
  · rw [getElem?_eq_getElem (by simpa using hk), Array.getElem_swap]
    split
    · simp [hj]
    · split
      · simp [hi]
      · simp [hk]
  · simp [hk, show k ≠ i by omega, show k ≠ j by omega]

omit [LinearOrder κ] in
theorem keyAt_swap {i j : Nat} (hi : i < h.size) (hj : j < h.size) :
    keyAt key d (h.swap i j) = swapAt (keyAt key d h) i j := by
  funext k
  unfold swapAt
  simp only [keyAt, getD_swap h d hi hj k]
  split
  · rfl
  · split <;> rfl

omit [LinearOrder κ] in
theorem keyAt_inside {i : Nat} (hi : i < h.size) : keyAt key d h i = key h[i] := by
  simp [keyAt, Array.getD, hi]

theorem up_ordered (j : Nat) (d : α) (o : UpOrder (keyAt key d h) h.size j) :
    Ordered (keyAt key d (up key h j)) h.size := by
  fun_induction up key h j with
  | case1 h j bounds below inside less ih =>
    rw [← keyAt_inside key h d, ← keyAt_inside key h d] at less
    have := ih (by
      rw [keyAt_swap key h d below inside, size_swap]
      exact o.swap bounds.1 bounds.2 less)
    rwa [size_swap] at this
  | case2 h j bounds below inside stop =>
    rw [← keyAt_inside key h d, ← keyAt_inside key h d] at stop
    exact o.stop fun _ _ => le_of_not_gt stop
  | case3 h j out =>
    exact o.stop fun pos inside => absurd ⟨pos, inside⟩ out

theorem lesserChild_le (left : 2 * i + 1 < n) (size : n ≤ h.size) (c : Nat) (pos : 0 < c)
    (inside : c < n) (child : parent c = i) :
    keyAt key d h (lesserChild key h i n left size) ≤ keyAt key d h c := by
  have which : c = 2 * i + 1 ∨ c = 2 * i + 2 := by
    unfold parent at child
    omega
  unfold lesserChild
  split
  · rename_i right
    simp only
    rw [← keyAt_inside key h d (Nat.lt_of_lt_of_le right size),
      ← keyAt_inside key h d (Nat.lt_of_lt_of_le left size)]
    split
    · rename_i less
      rcases which with rfl | rfl
      · exact le_of_lt less
      · exact le_refl _
    · rename_i level
      rcases which with rfl | rfl
      · exact le_refl _
      · exact le_of_not_gt level
  · rcases which with rfl | rfl
    · exact le_refl _
    · omega

theorem down_ordered (d : α) (size : n ≤ h.size) (o : DownOrder (keyAt key d h) n i) :
    Ordered (keyAt key d (down key h i n)) n := by
  fun_induction down key h i n with
  | case1 h i bounds j range inside inside' less ih =>
    rw [← keyAt_inside key h d, ← keyAt_inside key h d] at less
    refine ih (by rw [size_swap]; exact size) ?_
    rw [keyAt_swap key h d inside' inside]
    have child : parent j = i := by
      unfold parent
      omega
    exact o.swap child (by omega) range.1
      (fun c pos hn hp => lesserChild_le key h d i n bounds.1 bounds.2 c pos hn hp) less
  | case2 h i bounds j range inside inside' stop =>
    rw [← keyAt_inside key h d, ← keyAt_inside key h d] at stop
    exact o.stop fun c pos hn hp => le_trans (le_of_not_gt stop)
      (lesserChild_le key h d i n bounds.1 bounds.2 c pos hn hp)
  | case3 h i out =>
    refine o.stop fun c pos hn hp => ?_
    unfold parent at hp
    omega

theorem down_getD (d : α) (k : Nat) (behind : n ≤ k) : (down key h i n).getD k d = h.getD k d := by
  fun_induction down key h i n with
  | case1 h i bounds j range inside inside' less ih =>
    rw [ih, getD_swap h d inside' inside, if_neg (by omega), if_neg (by omega)]
  | case2 h i bounds j range inside inside' stop => rfl
  | case3 h i out => rfl

variable {h : Array α}

theorem push_isHeap (heap : IsHeap key h) (x : α) : IsHeap key (push key h x) := by
  intro d
  have size : (push key h x).size = h.size + 1 := by
    unfold push
    rw [up_size, size_push]
  have old : ∀ k, k < h.size → keyAt key d (h.push x) k = keyAt key d h k := by
    intro k hk
    simp [keyAt, getD_eq_getD_getElem?, getElem?_push, show k ≠ h.size by omega]
  rw [size, ← size_push x]
  refine up_ordered key (h.push x) h.size d ⟨?_, ?_⟩
  · intro c hc hn hne
    rw [size_push] at hn
    have := parent_lt hc
    rw [old c (by omega), old (parent c) (by omega)]
    exact heap d c hc (by omega)
  · intro c hc hn hp
    have := parent_lt hc
    rw [size_push] at hn
    omega

theorem pop_none (empty : pop key h = none) : h = #[] := by
  unfold pop at empty
  split at empty
  · rename_i nonempty
    simp only [Option.map_eq_none_iff, back?_eq_none_iff] at empty
    have size := down_size key (h.swap 0 (h.size - 1)) 0 (h.size - 1)
    rw [empty, size_swap] at size
    rw [← size] at nonempty
    exact absurd nonempty (Nat.lt_irrefl 0)
  · rename_i zero
    exact eq_empty_of_size_eq_zero (by omega)

theorem toList_of_back {x : α} (last : h.back? = some x) : h.toList = h.pop.toList ++ [x] := by
  rw [← getLast?_toList] at last
  rw [toList_pop]
  obtain ⟨front, all⟩ := getLast?_eq_some_iff.mp last
  rw [all, dropLast_concat]

/-- A heap is its first element and what `Pop` leaves; this is a heap, and the element has
the least key. -/
theorem pop_spec {h' : Array α} {x : α} (heap : IsHeap key h) (taken : pop key h = some (x, h')) :
    h.toList.Perm (x :: h'.toList) ∧ IsHeap key h' ∧ ∀ y ∈ h.toList, key x ≤ key y := by
  unfold pop at taken
  split at taken
  · rename_i nonempty
    obtain ⟨x', last, same⟩ := Option.map_eq_some_iff.mp taken
    cases same
    have inside : h.size - 1 < h.size := by omega
    have size : (down key (h.swap 0 (h.size - 1)) 0 (h.size - 1)).size = h.size := by
      rw [down_size, size_swap]
    have perm := (down_perm key (h.swap 0 (h.size - 1)) 0 (h.size - 1)).trans
      (swap_perm nonempty inside)
    -- the place behind the heap that sinks holds the old root
    have root : ∀ d, h.getD 0 d = x := by
      intro d
      have kept := down_getD key (h.swap 0 (h.size - 1)) 0 (h.size - 1) d _ .refl
      rw [getD_swap h d nonempty inside] at kept
      rw [back?_eq_getElem?, size] at last
      rw [getD_eq_getD_getElem?, last] at kept
      by_cases only : h.size - 1 = 0
      · rw [if_pos only, only] at kept
        exact kept.symm
      · rw [if_neg only, if_pos rfl] at kept
        exact kept.symm
    refine ⟨?_, ?_, ?_⟩
    · have back := toList_of_back last
      refine (perm_iff_toList_perm.mp perm).symm.trans ?_
      rw [back]
      exact perm_append_singleton x _
    · intro d
      rw [size_pop, size]
      have o : DownOrder (keyAt key d (h.swap 0 (h.size - 1))) (h.size - 1) 0 := by
        refine ⟨fun c pos hn hp => ?_, fun c _ _ _ zero => absurd zero (Nat.lt_irrefl 0)⟩
        have := parent_lt pos
        rw [keyAt_swap key h d nonempty inside, swapAt_other _ hp (by omega),
          swapAt_other _ (by omega) (by omega)]
        exact heap d c pos (by omega)
      have ordered := down_ordered key _ 0 (h.size - 1) d (by rw [size_swap]; omega) o
      intro c pos hn
      have := parent_lt pos
      have kept : ∀ k, k < h.size - 1 →
          keyAt key d (down key (h.swap 0 (h.size - 1)) 0 (h.size - 1)).pop k
            = keyAt key d (down key (h.swap 0 (h.size - 1)) 0 (h.size - 1)) k := by
        intro k hk
        simp only [keyAt, getD_eq_getD_getElem?, getElem?_pop, size]
        rw [if_pos (by omega)]
      rw [kept c hn, kept (parent c) (by omega)]
      exact ordered c pos hn
    · intro y hy
      obtain ⟨c, hc, rfl⟩ := getElem_of_mem hy
      have least := (heap x).root_le c hc
      rw [keyAt_inside key h x hc] at least
      simpa [keyAt, root x] using least
  · cases taken

end

end GoSem.Heap
