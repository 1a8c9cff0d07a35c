import RustDds.Shmem.Publisher

/-!
# Loaned buffers

`loan` takes a buffer from the pool of the publisher and `commit` writes it and gives it back.
The pool keeps a free list of buffers, each as large as the pool promises or larger, and allocates
one where there is none.

A caller may commit any buffer, and one with a larger capacity goes on the free list as it is.
`loan` compares the size it is asked for with the capacity of the buffer it happens to take, not
with what the pool promises (`loan_right_iff`).
-/

namespace RustDds

/-- A `Vec<u8>`. -/
@[ext] structure ByteVec where
  content : Bytes
  capacity : ℕ
  length_le : content.length ≤ capacity
  deriving DecidableEq

namespace ByteVec

/-- `Vec::with_capacity`, which may allocate more than it is asked for. -/
def withCapacity (capacity spare : ℕ) : ByteVec := ⟨[], capacity + spare, Nat.zero_le _⟩

/-- `Vec::clear`. -/
def clear (buf : ByteVec) : ByteVec := ⟨[], buf.capacity, Nat.zero_le _⟩

lemma length_resized (content : Bytes) (size : ℕ) :
    (content.take size ++ List.replicate (size - content.length) 0).length = size := by
  rw [List.length_append, List.length_take, List.length_replicate]
  omega

/-- `Vec::resize` with zeros. -/
def resize (buf : ByteVec) (size : ℕ) : ByteVec where
  content := buf.content.take size ++ List.replicate (size - buf.content.length) 0
  capacity := max buf.capacity size
  length_le := (length_resized buf.content size).le.trans (le_max_right _ _)

lemma resize_clear (buf : ByteVec) (size : ℕ) :
    (buf.clear.resize size).content = List.replicate size 0 := by
  simp [resize, clear]

end ByteVec

/-- The most buffers on the free list. -/
def maxPooled : ℕ := 64

/-- A pool of buffers.  The buffer that was put last is the first of the free list. -/
structure BytePool where
  free : List ByteVec
  size : ℕ
  deriving DecidableEq

namespace BytePool

/-- An empty pool. -/
def new (size : ℕ) : BytePool := ⟨[], if size = 0 then 4096 else size⟩

/-- A buffer from the free list, or a new one. -/
def get (pool : BytePool) (spare : ℕ) : ByteVec × BytePool :=
  match pool.free with
  | buf :: free => (buf.clear, { pool with free })
  | [] => (.withCapacity pool.size spare, pool)

/-- Keep a buffer, unless it is too small or the list is full. -/
def put (pool : BytePool) (buf : ByteVec) : BytePool :=
  if buf.capacity < pool.size then pool
  else if pool.free.length ≥ maxPooled then pool
  else { pool with free := buf.clear :: pool.free }

/-- The capacity of the buffer that `get` returns. -/
def nextCapacity (pool : BytePool) (spare : ℕ) : ℕ := (pool.get spare).1.capacity

/-- The free list has at most `maxPooled` buffers, all of them empty and large enough. -/
structure WellFormed (pool : BytePool) : Prop where
  length_le : pool.free.length ≤ maxPooled
  content_eq : ∀ buf ∈ pool.free, buf.content = []
  size_le : ∀ buf ∈ pool.free, pool.size ≤ buf.capacity

variable {pool : BytePool} {spare : ℕ}

lemma wellFormed_new (size : ℕ) : (new size).WellFormed :=
  ⟨Nat.zero_le _, fun _ h => absurd h List.not_mem_nil, fun _ h => absurd h List.not_mem_nil⟩

@[simp] lemma size_get : (pool.get spare).2.size = pool.size := by
  rw [get]
  split <;> rfl

@[simp] lemma size_put (buf : ByteVec) : (pool.put buf).size = pool.size := by
  rw [put]
  split_ifs <;> rfl

lemma content_get : (pool.get spare).1.content = [] := by
  rw [get]
  split <;> rfl

lemma clear_get : (pool.get spare).1.clear = (pool.get spare).1 :=
  ByteVec.ext content_get.symm rfl

/-- A buffer that is large enough goes on the list, empty, if there is room. -/
lemma free_put {buf : ByteVec} (hsize : pool.size ≤ buf.capacity)
    (hroom : pool.free.length < maxPooled) : (pool.put buf).free = buf.clear :: pool.free := by
  rw [put, if_neg (by omega), if_neg (by omega)]

lemma WellFormed.get (h : pool.WellFormed) : (pool.get spare).2.WellFormed := by
  obtain ⟨free, size⟩ := pool
  cases free with
  | nil => exact h
  | cons buf free =>
    exact ⟨(Nat.le_succ _).trans h.length_le,
      fun b hb => h.content_eq b (List.mem_cons_of_mem _ hb),
      fun b hb => h.size_le b (List.mem_cons_of_mem _ hb)⟩

lemma WellFormed.put (h : pool.WellFormed) (buf : ByteVec) : (pool.put buf).WellFormed := by
  rw [BytePool.put]
  split_ifs with hsmall hfull
  · exact h
  · exact h
  · refine ⟨Nat.lt_of_not_le hfull, fun b hb => ?_, fun b hb => ?_⟩
    · rcases List.mem_cons.mp hb with rfl | hb
      · rfl
      · exact h.content_eq b hb
    · rcases List.mem_cons.mp hb with rfl | hb
      · exact Nat.le_of_not_lt hsmall
      · exact h.size_le b hb

/-- No buffer that is handed out is smaller than the pool promises. -/
lemma WellFormed.size_le_nextCapacity (h : pool.WellFormed) :
    pool.size ≤ pool.nextCapacity spare := by
  obtain ⟨free, size⟩ := pool
  cases free with
  | nil => exact Nat.le_add_right _ _
  | cons buf free => exact h.size_le buf List.mem_cons_self

end BytePool

/-- Why a loan failed. -/
inductive LoanError
  | closed
  | loanBuffer
  deriving DecidableEq, Repr

/-- A publisher with a pool. -/
structure ShmemLoaningPublisher where
  inner : Publication
  pool : BytePool

/-- A call on it.  `spare` is what the allocator adds, should it be needed. -/
inductive LoanCall
  | loan (spare size : ℕ)
  | commit (now : ℤ) (buf : ByteVec)
  | write (now : ℤ) (payload : Bytes)
  | close

namespace ShmemLoaningPublisher

/-- A publisher whose pool has buffers of `bufSize`, or of the default size. -/
def new (inner : Publication) (bufSize : ℕ) : ShmemLoaningPublisher := ⟨inner, .new bufSize⟩

variable (p : ShmemLoaningPublisher)

/-- A buffer of `size` zeros. -/
def loan (spare size : ℕ) : Except LoanError ByteVec × ShmemLoaningPublisher :=
  if p.inner.closed then (.error .closed, p)
  else
    let got := p.pool.get spare
    if got.1.capacity < size then (.error .loanBuffer, { p with pool := got.2.put got.1 })
    else (.ok (got.1.resize size), { p with pool := got.2 })

/-- Write the buffer and give it back. -/
def commit (now : ℤ) (buf : ByteVec) :
    Except Panic (Except DdsError Sample) × ShmemLoaningPublisher :=
  let written := p.inner.writePayload now buf.content
  match written.1 with
  | .error e => (.error e, { p with inner := written.2 })
  | .ok result => (.ok result, ⟨written.2, p.pool.put buf⟩)

/-- One call. -/
def step : LoanCall → ShmemLoaningPublisher
  | .loan spare size => (p.loan spare size).2
  | .commit now buf => (p.commit now buf).2
  | .write now payload => { p with inner := (p.inner.writePayload now payload).2 }
  | .close => { p with inner := { p.inner with closed := true } }

/-- The calls, one after the other. -/
def run (calls : List LoanCall) : ShmemLoaningPublisher := calls.foldl step p

/-- The outcome of a loan is what the size alone says. -/
def LoanRight (spare size : ℕ) : Prop :=
  (size ≤ p.pool.size →
    ∃ buf, (p.loan spare size).1 = .ok buf ∧ buf.content = List.replicate size 0) ∧
  (p.pool.size < size → (p.loan spare size).1 = .error .loanBuffer)

variable {p} {spare size : ℕ}

lemma pool_step (h : p.pool.WellFormed) (call : LoanCall) :
    (p.step call).pool.WellFormed ∧ (p.step call).pool.size = p.pool.size := by
  cases call with
  | loan spare size =>
    simp only [step, loan]
    split_ifs
    · exact ⟨h, rfl⟩
    · exact ⟨h.get.put _, by simp⟩
    · exact ⟨h.get, by simp⟩
  | commit now buf =>
    simp only [step, commit]
    split
    · exact ⟨h, rfl⟩
    · exact ⟨h.put buf, by simp⟩
  | write _ _ | close => exact ⟨h, rfl⟩

lemma pool_run (inner : Publication) (bufSize : ℕ) (calls : List LoanCall) :
    let p := (new inner bufSize).run calls
    p.pool.WellFormed ∧ p.pool.size = if bufSize = 0 then 4096 else bufSize :=
  (Run.each_of_forall fun _ _ _ => trivial).foldl (P := fun _ _ => True)
    (I := fun p : ShmemLoaningPublisher => p.pool.WellFormed ∧
      p.pool.size = if bufSize = 0 then 4096 else bufSize)
    (fun _ call h _ => ⟨(pool_step h.1 call).1, (pool_step h.1 call).2.trans h.2⟩)
    ⟨BytePool.wellFormed_new bufSize, rfl⟩

/-- What is lent is zeros. -/
lemma content_of_loan {buf : ByteVec} (h : (p.loan spare size).1 = .ok buf) :
    buf.content = List.replicate size 0 := by
  simp only [loan] at h
  split_ifs at h
  have hbuf : (p.pool.get spare).1.resize size = buf := Except.ok.inj h
  rw [← hbuf, ← BytePool.clear_get]
  exact ByteVec.resize_clear _ size

/-- A loan is granted if the buffer at hand is large enough. -/
lemma loan_eq (hopen : p.inner.closed = false) :
    (p.loan spare size).1 =
      if p.pool.nextCapacity spare < size then .error .loanBuffer
      else .ok ((p.pool.get spare).1.resize size) := by
  rw [loan, if_neg (by simp [hopen]), BytePool.nextCapacity]
  dsimp only
  split_ifs <;> rfl

/-- **Loans.**  After any calls, the free list has at most `maxPooled` buffers, empty and of the
promised capacity, and what is lent is zeros.  On an open publisher, a loan is granted as the size
alone says exactly if the size is not above what the pool promises, or the buffer at hand is too
small for it.  A `commit` that returns has given its buffer back, whatever it returns. -/
theorem loan_right_iff (inner : Publication) (bufSize : ℕ) (calls : List LoanCall) :
    let p := (new inner bufSize).run calls
    p.pool.size = (if bufSize = 0 then 4096 else bufSize) ∧
    p.pool.WellFormed ∧
    (∀ spare size buf, (p.loan spare size).1 = .ok buf →
      buf.content = List.replicate size 0) ∧
    (∀ spare size, p.inner.closed = false →
      (p.LoanRight spare size ↔ size ≤ p.pool.size ∨ p.pool.nextCapacity spare < size)) ∧
    (∀ now buf result, (p.commit now buf).1 = .ok result →
      (p.commit now buf).2.pool = p.pool.put buf ∧
        (p.pool.size ≤ buf.capacity → p.pool.free.length < maxPooled →
          (p.pool.put buf).free = buf.clear :: p.pool.free)) := by
  intro p
  obtain ⟨hformed, hsize⟩ := pool_run inner bufSize calls
  refine ⟨hsize, hformed, fun _ _ _ h => content_of_loan h, fun spare size hopen => ?_,
    fun now buf result hresult => ?_⟩
  · have hle : p.pool.size ≤ p.pool.nextCapacity spare := hformed.size_le_nextCapacity
    constructor
    · rintro ⟨-, hlarge⟩
      refine or_iff_not_imp_left.mpr fun hsize => ?_
      have herror := hlarge (Nat.lt_of_not_le hsize)
      rw [loan_eq hopen] at herror
      by_contra hfits
      rw [if_neg hfits] at herror
      cases herror
    · intro hcond
      refine ⟨fun hsize => ?_, fun hlarge => ?_⟩
      · have hok := @loan_eq p spare size hopen
        rw [if_neg (by omega)] at hok
        exact ⟨_, hok, content_of_loan hok⟩
      · rw [loan_eq hopen, if_pos (hcond.resolve_left (by omega))]
  · simp only [commit] at hresult ⊢
    split at hresult
    · cases hresult
    · exact ⟨rfl, BytePool.free_put⟩

/-- A loan of 8 bytes, from a pool of 4, is granted after a buffer of 8 was committed, and refused
before. -/
theorem loan_after_large_commit :
    let inner : Publication := ⟨"a", .default, ⟨FixedBytes.zero 12, FixedBytes.zero 4⟩, 0, false⟩
    let large : ByteVec := ⟨List.replicate 8 1, 8, List.length_replicate.le⟩
    ((new inner 4).loan 0 8).1 = .error .loanBuffer ∧
      (((new inner 4).run [.commit 0 large]).loan 0 8).1 =
        .ok ⟨List.replicate 8 0, 8, List.length_replicate.le⟩ := by
  decide +kernel

end ShmemLoaningPublisher

end RustDds
