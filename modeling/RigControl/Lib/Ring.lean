import Mathlib.Data.List.Basic

/-!
# Ring buffers

A `RingBuffer` is a block of memory of `size` items that two parties use as a queue. What was
written and not yet read are its `contents`, in memory one after the other and round the
end. A party acquires a contiguous run of the memory, copies into it or out of it, and
commits what it has copied; the other may commit in between. `Staged` says that a copy
lies behind the contents: nothing but the commit that takes it in changes that.
-/

namespace RigControl.Lib

/-- `rd` and `wr` count all that was ever read and written. -/
structure RingBuffer (α : Type) where
  size : Nat
  mem : Nat → α
  rd : Nat
  wr : Nat
  le : rd ≤ wr
  fits : wr ≤ rd + size

namespace RingBuffer

variable {α : Type}

def empty (size : Nat) (mem : Nat → α) : RingBuffer α := ⟨size, mem, 0, 0, Nat.le_refl 0, Nat.zero_le _⟩

def avail (r : RingBuffer α) : Nat := r.wr - r.rd

def room (r : RingBuffer α) : Nat := r.size - r.avail

def readPtr (r : RingBuffer α) : Nat := r.rd % r.size

def writePtr (r : RingBuffer α) : Nat := r.wr % r.size

def contents (r : RingBuffer α) : List α := (List.range r.avail).map fun i => r.mem ((r.rd + i) % r.size)

/-- A run of `n` items that can be written, or read, in one piece. -/
def WriteRun (r : RingBuffer α) (n : Nat) : Prop := n ≤ r.room ∧ r.writePtr + n ≤ r.size

def ReadRun (r : RingBuffer α) (n : Nat) : Prop := n ≤ r.avail ∧ r.readPtr + n ≤ r.size

instance (r : RingBuffer α) (n : Nat) : Decidable (r.WriteRun n) :=
  inferInstanceAs (Decidable (_ ∧ _))

instance (r : RingBuffer α) (n : Nat) : Decidable (r.ReadRun n) :=
  inferInstanceAs (Decidable (_ ∧ _))

/-- Copy to the address `p`. -/
def store (r : RingBuffer α) (p : Nat) (src : List α) : RingBuffer α :=
  { r with mem := fun a => if p ≤ a then (src[a - p]?).getD (r.mem a) else r.mem a }

/-- Copy `n` items from the address `p`. -/
def load (r : RingBuffer α) (p n : Nat) : List α := (List.range n).map fun i => r.mem (p + i)

/-- A commit of more than there is room for has no effect. -/
def commitWrite (r : RingBuffer α) (n : Nat) : RingBuffer α :=
  if h : n ≤ r.room then
    { r with
      wr := r.wr + n
      le := Nat.le_trans r.le (Nat.le_add_right _ _)
      fits := by
        have := r.fits
        have := r.le
        unfold room avail at h
        omega }
  else r

def commitRead (r : RingBuffer α) (n : Nat) : RingBuffer α :=
  if h : n ≤ r.avail then
    { r with
      rd := r.rd + n
      le := by
        have := r.le
        unfold avail at h
        omega
      fits := by
        have := r.fits
        omega }
  else r

variable {r : RingBuffer α} {n p : Nat} {src : List α}

theorem commitWrite_eq (h : n ≤ r.room) : (r.commitWrite n).mem = r.mem ∧
    (r.commitWrite n).size = r.size ∧ (r.commitWrite n).rd = r.rd ∧ (r.commitWrite n).wr = r.wr + n := by
  simp [commitWrite, h]

theorem commitRead_eq (h : n ≤ r.avail) : (r.commitRead n).mem = r.mem ∧
    (r.commitRead n).size = r.size ∧ (r.commitRead n).rd = r.rd + n ∧ (r.commitRead n).wr = r.wr := by
  simp [commitRead, h]

@[simp] theorem commitWrite_size : (r.commitWrite n).size = r.size := by
  unfold commitWrite
  split <;> rfl

@[simp] theorem commitRead_size : (r.commitRead n).size = r.size := by
  unfold commitRead
  split <;> rfl

@[simp] theorem length_contents : r.contents.length = r.avail := by simp [contents]

@[simp] theorem length_load : (r.load p n).length = n := by simp [load]

theorem avail_add_room (r : RingBuffer α) : r.avail + r.room = r.size := by
  have := r.fits
  unfold room avail
  omega

/-! ## Addresses -/

/-- Positions less than a round apart have different addresses. -/
theorem mod_ne_mod {a b size : Nat} (hlt : a < b) (hnear : b < a + size) : b % size ≠ a % size := by
  intro h
  have hdvd : size ∣ b - a := Nat.dvd_of_mod_eq_zero (Nat.sub_mod_eq_zero_of_mod_eq h)
  have hle := Nat.le_of_dvd (by omega) hdvd
  omega

/-- Within a run the addresses do not go round. -/
theorem mod_run {a size i : Nat} (hi : i < n) (hrun : a % size + n ≤ size) :
    (a + i) % size = a % size + i := by
  rw [← Nat.mod_add_mod, Nat.mod_eq_of_lt (by omega)]

/-! ## Writing -/

/-- A copy lies behind the contents. -/
def Staged (r : RingBuffer α) (src : List α) : Prop :=
  ∀ i (h : i < src.length), r.mem ((r.wr + i) % r.size) = src[i]

theorem store_staged (h : r.WriteRun src.length) : (r.store r.writePtr src).Staged src := by
  intro i hi
  have haddr : (r.wr + i) % r.size = r.writePtr + i := mod_run hi h.2
  simp [store, haddr, hi]

/-- A copy into the free run does not touch the contents. -/
theorem store_contents (h : r.WriteRun src.length) :
    (r.store r.writePtr src).contents = r.contents := by
  refine List.map_congr_left fun j hj => ?_
  have hj' : j < r.avail := List.mem_range.mp hj
  have hsum := r.avail_add_room
  have hwr : r.rd + r.avail = r.wr := by
    have := r.le
    unfold avail
    omega
  by_cases hin : r.writePtr ≤ (r.rd + j) % r.size ∧ (r.rd + j) % r.size < r.writePtr + src.length
  · -- the item would be less than a round before one of the run
    obtain ⟨i, hi⟩ := Nat.exists_eq_add_of_le hin.1
    have hlen : i < src.length := by omega
    have haddr : (r.wr + i) % r.size = r.writePtr + i := mod_run hlen h.2
    have hroom := h.1
    exact absurd (haddr.trans hi.symm) (mod_ne_mod (by omega) (by omega))
  · simp only [store]
    split
    · rw [List.getElem?_eq_none (by omega)]
      rfl
    · rfl

theorem commitWrite_contents (h : r.Staged src) (hroom : src.length ≤ r.room) :
    (r.commitWrite src.length).contents = r.contents ++ src := by
  obtain ⟨hmem, hsize, hrd, hwr⟩ := commitWrite_eq hroom
  have hle := r.le
  have havail : (r.commitWrite src.length).avail = r.avail + src.length := by
    unfold avail
    omega
  unfold contents
  rw [havail, hmem, hsize, hrd, List.range_add, List.map_append, List.map_map]
  congr 1
  refine List.ext_getElem (by simp) fun i hi hi' => ?_
  have hpos : r.rd + (r.avail + i) = r.wr + i := by
    unfold avail
    omega
  simp only [List.getElem_map, List.getElem_range, Function.comp_apply, hpos]
  exact h i hi'

theorem Staged.commitRead (h : r.Staged src) (n : Nat) : (r.commitRead n).Staged src := by
  unfold RingBuffer.commitRead
  split <;> exact h

/-! ## Reading -/

/-- What is copied out of a run is the first of the contents. -/
theorem load_eq (h : r.ReadRun n) : r.load r.readPtr n = r.contents.take n := by
  have hle := h.1
  refine List.ext_getElem (by simp [hle]) fun i hi hi' => ?_
  have hin : i < n := by simpa using hi
  have haddr : (r.rd + i) % r.size = r.readPtr + i := mod_run hin h.2
  simp [load, contents, haddr]

theorem commitRead_contents (h : n ≤ r.avail) : (r.commitRead n).contents = r.contents.drop n := by
  obtain ⟨hmem, hsize, hrd, hwr⟩ := commitRead_eq h
  have havail : (r.commitRead n).avail = r.avail - n := by
    unfold avail at h ⊢
    omega
  refine List.ext_getElem (by simp [havail]) fun i hi hi' => ?_
  simp [contents, hmem, hrd, Nat.add_assoc]

/-! ## Room -/

theorem commitWrite_avail (h : n ≤ r.room) : (r.commitWrite n).avail = r.avail + n := by
  obtain ⟨-, -, hrd, hwr⟩ := commitWrite_eq h
  have := r.le
  unfold avail
  omega

theorem commitRead_avail (h : n ≤ r.avail) : (r.commitRead n).avail = r.avail - n := by
  obtain ⟨-, -, hrd, hwr⟩ := commitRead_eq h
  unfold avail
  omega

@[simp] theorem commitRead_zero : r.commitRead 0 = r := by simp [commitRead]

/-- Reading only makes room. -/
theorem room_le_commitRead (r : RingBuffer α) (m : Nat) : r.room ≤ (r.commitRead m).room := by
  by_cases hm : m ≤ r.avail
  · have h1 := r.avail_add_room
    have h2 := (r.commitRead m).avail_add_room
    rw [commitRead_avail hm, commitRead_size] at h2
    omega
  · simp [commitRead, hm]

/-- A run stays free that was free. -/
theorem WriteRun.commitRead (h : r.WriteRun n) (m : Nat) : (r.commitRead m).WriteRun n := by
  unfold RingBuffer.commitRead
  split
  · rename_i hm
    obtain ⟨hroom, hptr⟩ := h
    refine ⟨?_, hptr⟩
    unfold room avail at *
    dsimp only
    omega
  · exact h

theorem ReadRun.commitWrite (h : r.ReadRun n) (m : Nat) : (r.commitWrite m).ReadRun n := by
  unfold RingBuffer.commitWrite
  split
  · obtain ⟨havail, hptr⟩ := h
    refine ⟨?_, hptr⟩
    unfold avail at *
    dsimp only
    omega
  · exact h

end RingBuffer

end RigControl.Lib
