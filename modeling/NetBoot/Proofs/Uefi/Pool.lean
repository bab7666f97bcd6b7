/-
  NetBoot.Proofs.Uefi.Pool — what is handed out of the pool stays apart, and goes back as it came.

  A client takes memory and gives it back, and writes in what it holds (`Step`, `Reached`). The pool is any
  that gives out blocks at multiples of eight which are apart from those that are out, and is seen through
  the bytes of memory and the blocks that are out (`Arena`). What carries the proof is where a part lies in
  its block: the part for a large alignment begins at a multiple of the alignment, a word or more behind
  the start of the block (`place_over`), so the word just below it belongs to the block and to nobody
  else. No write of the client comes to that word, and giving the part back finds the block there.
-/

import Mathlib.Data.List.Pairwise
import Mathlib.Data.Set.Lattice
import Mathlib.Logic.Function.Basic
import Mathlib.Order.CompletePartialOrder
import Mathlib.Order.Interval.Set.Basic
import NetBoot.Proofs.Bytes
import NetBoot.Uefi.Pool

namespace NetBoot.Uefi.Pool

/-! ## Places -/

section Places

variable {block align : UInt64}

theorem toNat_offset (halign : align.toNat.isPowerOfTwo) :
    (offset block align).toNat = align.toNat - block.toNat % align.toNat := by
  have hpos := Nat.pos_of_isPowerOfTwo halign
  have hone : (1 : UInt64) ≤ align := by
    rw [UInt64.le_iff_toNat_le]
    exact hpos
  have hmask : (block &&& (align - 1)).toNat = block.toNat % align.toNat := by
    have hsub : (align - 1).toNat = align.toNat - 1 := UInt64.toNat_sub_of_le _ _ hone
    obtain ⟨k, hk⟩ := halign
    rw [UInt64.toNat_and, hsub, hk, Nat.and_two_pow_sub_one_eq_mod]
  have hle : block &&& (align - 1) ≤ align := by
    rw [UInt64.le_iff_toNat_le, hmask]
    exact (Nat.mod_lt _ hpos).le
  rw [offset, UInt64.toNat_sub_of_le _ _ hle, hmask]

/-- Behind a block at a multiple of eight, the next multiple of a larger alignment is a word or more away,
    and not more than the alignment. -/
theorem place_over (halign : align.toNat.isPowerOfTwo) (hover : 8 < align.toNat) (hblock : 8 ∣ block.toNat) :
    8 ≤ (offset block align).toNat ∧ (offset block align).toNat ≤ align.toNat ∧
      align.toNat ∣ block.toNat + (offset block align).toNat := by
  have hlt := Nat.mod_lt block.toNat (Nat.pos_of_isPowerOfTwo halign)
  have height : 8 ∣ align.toNat := dvd_of_isPowerOfTwo ⟨3, rfl⟩ halign hover.le
  have hrest : 8 ∣ block.toNat % align.toNat := (Nat.dvd_mod_iff height).mpr hblock
  have hdiv := Nat.div_add_mod block.toNat align.toNat
  rw [toNat_offset halign]
  refine ⟨by omega, by omega, block.toNat / align.toNat + 1, ?_⟩
  rw [Nat.mul_add, Nat.mul_one]
  omega

/-- A block at a multiple of eight does for every smaller alignment. -/
theorem place_plain (halign : align.toNat.isPowerOfTwo) (hplain : align.toNat ≤ 8) (hblock : 8 ∣ block.toNat) :
    align.toNat ∣ block.toNat :=
  Nat.dvd_trans (dvd_of_isPowerOfTwo halign ⟨3, rfl⟩ hplain) hblock

end Places

/-- The bytes that the pool is asked for, where there is such a number. -/
def requested (l : Layout) : UInt64 := if isPlain l then l.size else l.size + l.align

theorem isPlain_iff {l : Layout} : isPlain l = true ↔ l.align.toNat ≤ 8 := by
  rw [isPlain, decide_eq_true_eq, UInt64.le_iff_toNat_le]
  rfl

theorem isPlain_eq_false_iff {l : Layout} : isPlain l = false ↔ 8 < l.align.toNat := by
  rw [Bool.eq_false_iff, ne_eq, isPlain_iff, Nat.not_le]

theorem request?_plain {l : Layout} (h : isPlain l = true) : request? l = some (requested l) := by
  rw [request?, requested, if_pos h, if_pos h]

theorem request?_over {l : Layout} (h : isPlain l = false) (hsize : l.size.toNat + l.align.toNat < UInt64.size) :
    request? l = some (requested l) ∧ (requested l).toNat = l.size.toNat + l.align.toNat := by
  have hnot : ¬isPlain l = true := by rw [h]; exact Bool.false_ne_true
  rw [request?, requested, if_neg hnot, if_neg hnot, if_pos hsize, UInt64.toNat_add, Nat.mod_eq_of_lt hsize]
  exact ⟨rfl, rfl⟩

theorem request?_eq_none_iff {l : Layout} :
    request? l = none ↔ isPlain l = false ∧ UInt64.size ≤ l.size.toNat + l.align.toNat := by
  cases hplain : isPlain l with
  | true => simp [request?_plain hplain]
  | false =>
    by_cases hsize : l.size.toNat + l.align.toNat < UInt64.size
    · rw [(request?_over hplain hsize).1]
      exact iff_of_false nofun fun h => absurd hsize (Nat.not_lt.mpr h.2)
    · rw [request?, if_neg (by rw [hplain]; exact Bool.false_ne_true), if_neg hsize]
      exact iff_of_true rfl ⟨rfl, Nat.not_lt.mp hsize⟩

theorem eq_requested {l : Layout} {size : UInt64} (h : request? l = some size) : size = requested l := by
  cases hplain : isPlain l with
  | true => exact Option.some.inj (h.symm.trans (request?_plain hplain))
  | false =>
    by_cases hsize : l.size.toNat + l.align.toNat < UInt64.size
    · exact Option.some.inj (h.symm.trans (request?_over hplain hsize).1)
    · rw [request?_eq_none_iff.mpr ⟨hplain, Nat.not_lt.mp hsize⟩] at h
      cases h

/-- Where the part for a layout lies in its block: at a multiple of the alignment, and unless the
    alignment of the block does, with a word of the block below it. -/
structure Placed (l : Layout) (start block : Address) : Prop where
  aligned : l.align.toNat ∣ start.toNat
  le : block.toNat ≤ start.toNat
  inside : start.toNat + l.size.toNat ≤ block.toNat + (requested l).toNat
  plain : isPlain l = true → start = block
  below : isPlain l = false → block.toNat + 8 ≤ start.toNat

section Placed

variable {l : Layout} {block : Address}

theorem placed_plain (halign : l.align.toNat.isPowerOfTwo) (hblock : 8 ∣ block.toNat) (hplain : isPlain l = true) :
    Placed l block block where
  aligned := place_plain halign (isPlain_iff.mp hplain) hblock
  le := Nat.le_refl _
  inside := by rw [requested, if_pos hplain]
  plain _ := rfl
  below h := absurd (h.symm.trans hplain) Bool.false_ne_true

theorem placed_over (halign : l.align.toNat.isPowerOfTwo) (hblock : 8 ∣ block.toNat) (hplain : isPlain l = false)
    (hrequest : request? l = some (requested l)) (hend : block.toNat + (requested l).toNat < UInt64.size) :
    Placed l (block + offset block l.align) block := by
  have hsize : l.size.toNat + l.align.toNat < UInt64.size := by
    by_contra h
    rw [request?_eq_none_iff.mpr ⟨hplain, Nat.not_lt.mp h⟩] at hrequest
    cases hrequest
  have hrequested := (request?_over hplain hsize).2
  obtain ⟨hword, hle, hdvd⟩ := place_over halign (isPlain_eq_false_iff.mp hplain) hblock
  have hstart : (block + offset block l.align).toNat = block.toNat + (offset block l.align).toNat := by
    rw [UInt64.toNat_add]
    exact Nat.mod_eq_of_lt (by rw [UInt64.size] at hend; omega)
  exact
    { aligned := by rwa [hstart]
      le := by omega
      inside := by omega
      plain := fun h => absurd (hplain.symm.trans h) Bool.false_ne_true
      below := fun _ => by omega }

end Placed

/-! ## A pool, and what is seen of it -/

/-- The addresses of so many bytes. -/
def span (start : Address) (size : UInt64) : Set Nat := Set.Ico start.toNat (start.toNat + size.toNat)

/-- What is seen of a state of memory: the byte at an address, and the size of the block of the pool that
    is out there. -/
structure View (σ : Type) where
  byteAt : σ → Nat → UInt8
  blockAt : σ → Address → Option UInt64

namespace View

variable {σ : Type} (v : View σ)

/-- The address lies in a block that is out. -/
def Covered (s : σ) (x : Nat) : Prop := ∃ block size, v.blockAt s block = some size ∧ x ∈ span block size

/-- The word at the address lies in a block that is out. -/
def WordCovered (s : σ) (a : Address) : Prop :=
  ∃ block size, v.blockAt s block = some size ∧ span a wordSize ⊆ span block size

/-- The bytes from an address on. -/
def bytesAt (s : σ) (a len : Nat) : List UInt8 := (List.range len).map fun i => v.byteAt s (a + i)

/-- The pool has given out a block of that size: it lies at a multiple of eight, ends at an address and is
    apart from those that were out, whose bytes are as they were. -/
structure Given (size : UInt64) (s : σ) (block : Address) (s' : σ) : Prop where
  notNull : block ≠ 0
  aligned : 8 ∣ block.toNat
  bounded : block.toNat + size.toNat < UInt64.size
  fresh : v.blockAt s block = none
  apart : ∀ other n, v.blockAt s other = some n → Disjoint (span other n) (span block size)
  blocks : v.blockAt s' = Function.update (v.blockAt s) block (some size)
  bytes : ∀ x, v.Covered s x → v.byteAt s' x = v.byteAt s x

/-- A word has been written, and nothing else. -/
structure Written (a : Address) (word : UInt64) (s s' : σ) : Prop where
  blocks : v.blockAt s' = v.blockAt s
  word : v.bytesAt s' a.toNat 8 = leBytes 8 word.toNat
  bytes : ∀ x, v.Covered s x → x ∉ span a wordSize → v.byteAt s' x = v.byteAt s x

end View

/-- A pool and its memory. An allocation is refused, or gives a block that is apart from those that are
    out; what the pool does for itself changes no byte of a block that is out. -/
structure Arena (σ : Type) extends View σ where
  pool : Pool (StateM σ)
  refused : ∀ {size s s'}, pool.allocate size s = (none, s') →
    blockAt s' = blockAt s ∧ ∀ x, toView.Covered s x → byteAt s' x = byteAt s x
  given : ∀ {size s block s'}, pool.allocate size s = (some block, s') → toView.Given size s block s'
  freed : ∀ {s block size}, blockAt s block = some size →
    blockAt (pool.free block s).2 = Function.update (blockAt s) block none ∧
      ∀ x, toView.Covered (pool.free block s).2 x → byteAt (pool.free block s).2 x = byteAt s x
  read : ∀ {s a}, toView.WordCovered s a →
    pool.readWord a s = (UInt64.ofNat (leNat (toView.bytesAt s a.toNat 8)), s)
  written : ∀ {s a} (word : UInt64), toView.WordCovered s a → toView.Written a word s (pool.writeWord a word s).2

/-! ## A client -/

/-- A call that comes to the pool, and its answer. -/
inductive Call where
  | allocate (size : UInt64) (answer : Option Address)
  | free (block : Address)
  deriving DecidableEq, Repr

/-- A pool that notes the calls that come to it. -/
def noted {σ : Type} (p : Pool (StateM σ)) : Pool (StateM (σ × List Call)) where
  allocate size := fun (s, calls) =>
    let (answer, s') := p.allocate size s
    (answer, s', calls ++ [.allocate size answer])
  free block := fun (s, calls) => ((), (p.free block s).2, calls ++ [.free block])
  readWord a := fun (s, calls) =>
    let (word, s') := p.readWord a s
    (word, s', calls)
  writeWord a word := fun (s, calls) => ((), (p.writeWord a word s).2, calls)

/-- Memory that has been handed out: what it was asked for with, where it starts, and the block that the
    pool gave for it. -/
structure Grant where
  layout : Layout
  start : Address
  block : Address
  deriving DecidableEq, Repr

namespace Grant

/-- The addresses that are the client's. -/
def span (g : Grant) : Set Nat := Pool.span g.start g.layout.size

/-- The addresses of the block. -/
def room (g : Grant) : Set Nat := Pool.span g.block (requested g.layout)

/-- The word below the client's addresses, which keeps the block's own address. -/
def header (g : Grant) : Set Nat := Set.Ico (g.start.toNat - 8) g.start.toNat

end Grant

structure Client (σ : Type) where
  state : σ
  /-- Is a pool at hand? -/
  serving : Bool
  /-- What has been handed out and not given back. -/
  live : List Grant

section Run

variable {σ : Type} (P : Arena σ)

namespace Client

def pool? (c : Client σ) : Option (Pool (StateM (σ × List Call))) := if c.serving then some (noted P.pool) else none

/-- What an allocation gives, and the calls that it makes. -/
def alloc (c : Client σ) (l : Layout) : Option Address × σ × List Call := Pool.alloc (c.pool? P) l (c.state, [])

/-- The state behind a deallocation, and the calls that it makes. -/
def dealloc (c : Client σ) (g : Grant) : σ × List Call := (Pool.dealloc (c.pool? P) g.start g.layout (c.state, [])).2

end Client

/-- What happens to a client: memory is asked for and given back, the client writes in what it holds, and
    the pool comes and goes. -/
inductive Step : Client σ → Client σ → Prop
  | alloc {c : Client σ} {l : Layout} {start block : Address} {size : UInt64} {s : σ} {calls : List Call} :
    l.align.toNat.isPowerOfTwo → c.alloc P l = (some start, s, calls) → .allocate size (some block) ∈ calls →
    Step c { c with state := s, live := ⟨l, start, block⟩ :: c.live }
  | refused {c : Client σ} {l : Layout} {s : σ} {calls : List Call} :
    c.alloc P l = (none, s, calls) → Step c { c with state := s }
  | dealloc {c : Client σ} {g : Grant} {s : σ} {calls : List Call} :
    g ∈ c.live → c.dealloc P g = (s, calls) → Step c { c with state := s, live := c.live.erase g }
  | write {c : Client σ} {s : σ} : P.blockAt s = P.blockAt c.state →
    (∀ x, (∀ g ∈ c.live, x ∉ g.span) → P.byteAt s x = P.byteAt c.state x) → Step c { c with state := s }
  | serve {c : Client σ} (serving : Bool) : Step c { c with serving }

/-- The states of a client that begins with nothing. -/
inductive Reached : Client σ → Prop
  | start (s : σ) (serving : Bool) : Reached ⟨s, serving, []⟩
  | step {c c' : Client σ} : Reached c → Step P c c' → Reached c'

end Run

/-! ## What one call does -/

section Calls

variable {σ : Type} {P : Arena σ} {c : Client σ}

/-- The ways an allocation goes. -/
inductive Allocated (P : Arena σ) (c : Client σ) (l : Layout) : Option Address × σ × List Call → Prop
  | unasked : c.serving = false ∨ request? l = none → Allocated P c l (none, c.state, [])
  | refused {s : σ} : c.serving = true → request? l = some (requested l) →
    P.pool.allocate (requested l) c.state = (none, s) → Allocated P c l (none, s, [.allocate (requested l) none])
  | plain {block : Address} {s : σ} : c.serving = true → isPlain l = true →
    P.pool.allocate (requested l) c.state = (some block, s) →
    Allocated P c l (some block, s, [.allocate (requested l) (some block)])
  | wide {block : Address} {s : σ} : c.serving = true → isPlain l = false → request? l = some (requested l) →
    P.pool.allocate (requested l) c.state = (some block, s) →
    Allocated P c l (some (block + offset block l.align),
      (P.pool.writeWord (block + offset block l.align - wordSize) block s).2,
      [.allocate (requested l) (some block)])

theorem Client.alloc_unasked {l : Layout} (h : c.serving = false ∨ request? l = none) :
    c.alloc P l = (none, c.state, []) := by
  obtain hserving | hrequest := h
  · simp only [Client.alloc, Client.pool?, hserving, Pool.alloc]
    rfl
  · cases hserving : c.serving <;> simp only [Client.alloc, Client.pool?, hserving, Pool.alloc, hrequest] <;> rfl

theorem Client.alloc_asked {l : Layout} {size : UInt64} {answer : Option Address} {s : σ} (hserving : c.serving = true)
    (hrequest : request? l = some size) (hcall : P.pool.allocate size c.state = (answer, s)) :
    c.alloc P l =
      match answer with
      | none => (none, s, [.allocate size none])
      | some block =>
        if isPlain l then (some block, s, [.allocate size (some block)])
        else
          (some (block + offset block l.align), (P.pool.writeWord (block + offset block l.align - wordSize) block s).2,
            [.allocate size (some block)]) := by
  have hpool : c.pool? P = some (noted P.pool) := if_pos hserving
  have hnoted : (noted P.pool).allocate size (c.state, []) = (answer, s, [.allocate size answer]) := by
    simp only [noted, hcall, List.nil_append]
  simp only [Client.alloc, hpool, Pool.alloc, hrequest, bind, StateT.bind, hnoted]
  cases answer with
  | none => rfl
  | some block => cases isPlain l <;> rfl

theorem Client.alloc_allocated (P : Arena σ) (c : Client σ) (l : Layout) : Allocated P c l (c.alloc P l) := by
  cases hserving : c.serving with
  | false =>
    rw [alloc_unasked (.inl hserving)]
    exact .unasked (.inl hserving)
  | true =>
    cases hrequest : request? l with
    | none =>
      rw [alloc_unasked (.inr hrequest)]
      exact .unasked (.inr hrequest)
    | some size =>
      obtain rfl := eq_requested hrequest
      obtain ⟨answer, s, hcall⟩ : ∃ answer s, P.pool.allocate (requested l) c.state = (answer, s) :=
        ⟨_, _, rfl⟩
      rw [alloc_asked hserving hrequest hcall]
      cases answer with
      | none => exact .refused hserving hrequest hcall
      | some block =>
        cases hplain : isPlain l with
        | true => exact .plain hserving hplain hcall
        | false => exact .wide hserving hplain hrequest hcall

end Calls

/-! ## What stays true -/

section Kept

variable {σ : Type} {P : Arena σ} {s s' : σ} {c c' : Client σ} {g g' : Grant}

theorem View.bytesAt_congr {v : View σ} {a len : Nat}
    (h : ∀ x ∈ Set.Ico a (a + len), v.byteAt s' x = v.byteAt s x) : v.bytesAt s' a len = v.bytesAt s a len :=
  List.map_congr_left fun i hi => h _ ⟨Nat.le_add_right a i, Nat.add_lt_add_left (List.mem_range.mp hi) a⟩

/-- Memory that has been handed out lies as it must in its block, the block is out, and the word
    below the memory says where it is. -/
structure Held (P : Arena σ) (s : σ) (g : Grant) : Prop where
  placed : Placed g.layout g.start g.block
  out : P.blockAt s g.block = some (requested g.layout)
  kept : isPlain g.layout = false → P.bytesAt s (g.start.toNat - 8) 8 = leBytes 8 g.block.toNat

namespace Placed

variable {l : Layout} {start block : Address}

theorem span_subset (h : Placed l start block) : span start l.size ⊆ span block (requested l) := fun _ hx =>
  ⟨h.le.trans hx.1, hx.2.trans_le h.inside⟩

theorem toNat_word (h : Placed l start block) (hover : isPlain l = false) :
    (start - wordSize).toNat = start.toNat - 8 := by
  have := h.below hover
  exact UInt64.toNat_sub_of_le _ _ (UInt64.le_iff_toNat_le.mpr (show 8 ≤ start.toNat by omega))

/-- The word below the start of a part that is not the whole block. -/
theorem span_word (h : Placed l start block) (hover : isPlain l = false) :
    span (start - wordSize) wordSize = Set.Ico (start.toNat - 8) start.toNat := by
  have := h.below hover
  have hend : start.toNat - 8 + wordSize.toNat = start.toNat := Nat.sub_add_cancel (by omega)
  rw [span, h.toNat_word hover, hend]

theorem word_subset (h : Placed l start block) (hover : isPlain l = false) :
    Set.Ico (start.toNat - 8) start.toNat ⊆ span block (requested l) := fun x hx => by
  have hbelow := h.below hover
  have hinside := h.inside
  exact ⟨by have := hx.1; omega, by have := hx.2; omega⟩

end Placed

namespace Held

theorem span_subset (h : Held P s g) : g.span ⊆ g.room := h.placed.span_subset

theorem header_subset (h : Held P s g) (hover : isPlain g.layout = false) : g.header ⊆ g.room :=
  h.placed.word_subset hover

theorem covered (h : Held P s g) {x : Nat} (hx : x ∈ g.room) : P.Covered s x := ⟨g.block, _, h.out, hx⟩

/-- What leaves the block out and the word alone changes nothing. -/
theorem mono (h : Held P s g) (hout : P.blockAt s' g.block = P.blockAt s g.block)
    (hword : isPlain g.layout = false → ∀ x ∈ g.header, P.byteAt s' x = P.byteAt s x) : Held P s' g where
  placed := h.placed
  out := hout.trans h.out
  kept hover := by
    rw [← h.kept hover]
    have hbelow := h.placed.below hover
    refine View.bytesAt_congr fun x hx => hword hover x ?_
    rwa [Nat.sub_add_cancel (by omega)] at hx

/-- Where the blocks are as they were and so are their bytes. -/
theorem mono_covered (h : Held P s g) (hout : P.blockAt s' g.block = P.blockAt s g.block)
    (hbytes : ∀ x ∈ g.room, P.byteAt s' x = P.byteAt s x) : Held P s' g :=
  h.mono hout fun hover x hx => hbytes x (h.header_subset hover hx)

/-- The word is found again when the memory is given back. -/
theorem readWord (h : Held P s g) (hover : isPlain g.layout = false) :
    P.pool.readWord (g.start - wordSize) s = (g.block, s) := by
  have hcovered : P.WordCovered s (g.start - wordSize) :=
    ⟨g.block, _, h.out, by rw [h.placed.span_word hover]; exact h.header_subset hover⟩
  have hlt : g.block.toNat % 1 <<< (8 * 8) = g.block.toNat := Nat.mod_eq_of_lt g.block.toNat_lt
  rw [P.read hcovered, h.placed.toNat_word hover, h.kept hover, leNat_leBytes, hlt, UInt64.ofNat_toNat]

end Held

/-- Two blocks that are not the same, and share no address. -/
structure Apart (g g' : Grant) : Prop where
  ne : g.block ≠ g'.block
  disjoint : Disjoint g.room g'.room

theorem Apart.symm (h : Apart g g') : Apart g' g := ⟨h.ne.symm, h.disjoint.symm⟩

instance : Std.Symm Apart := ⟨fun _ _ => Apart.symm⟩

/-- What holds of a client at every moment. -/
structure Kept (P : Arena σ) (c : Client σ) : Prop where
  held : ∀ g ∈ c.live, Held P c.state g
  apart : c.live.Pairwise Apart

section Given

variable {l : Layout} {start block : Address}

/-- A block that the pool gives is apart from those that a client holds, and does them no harm. -/
theorem Held.given (h : Held P s g) (hgiven : P.Given (requested l) s block s') :
    Held P s' g ∧ Apart ⟨l, start, block⟩ g := by
  have hne : g.block ≠ block := fun heq => by
    have hout := h.out
    rw [heq, hgiven.fresh] at hout
    cases hout
  have hout : P.blockAt s' g.block = P.blockAt s g.block := by
    rw [hgiven.blocks, Function.update_of_ne hne]
  exact ⟨h.mono_covered hout fun x hx => hgiven.bytes x (h.covered hx),
    ⟨hne.symm, (hgiven.apart _ _ h.out).symm⟩⟩

theorem given_out (hgiven : P.Given (requested l) s block s') : P.blockAt s' block = some (requested l) := by
  rw [hgiven.blocks, Function.update_self]

theorem held_plain (halign : l.align.toNat.isPowerOfTwo) (hplain : isPlain l = true)
    (hgiven : P.Given (requested l) s block s') : Held P s' ⟨l, block, block⟩ where
  placed := placed_plain halign hgiven.aligned hplain
  out := given_out hgiven
  kept hover := absurd (hover.symm.trans hplain) Bool.false_ne_true

/-- The word below a part of a block that has just been given lies in that block. -/
theorem wordCovered (hplaced : Placed l start block) (hover : isPlain l = false)
    (hgiven : P.Given (requested l) s block s') : P.WordCovered s' (start - wordSize) :=
  ⟨block, _, given_out hgiven, by rw [hplaced.span_word hover]; exact hplaced.word_subset hover⟩

theorem held_over {s'' : σ} (hplaced : Placed l start block) (hover : isPlain l = false)
    (hgiven : P.Given (requested l) s block s') (hwritten : P.Written (start - wordSize) block s' s'') :
    Held P s'' ⟨l, start, block⟩ where
  placed := hplaced
  out := by rw [hwritten.blocks]; exact given_out hgiven
  kept _ := by
    rw [← hplaced.toNat_word hover]
    exact hwritten.word

/-- The address of a block goes to a word of that block, and so to none that is apart from it. -/
theorem Held.written (h : Held P s g) (hplaced : Placed l start block) (hover : isPlain l = false)
    (happart : Apart ⟨l, start, block⟩ g) (hwritten : P.Written (start - wordSize) block s s') : Held P s' g := by
  refine h.mono_covered (congrFun hwritten.blocks _) fun x hx => hwritten.bytes x (h.covered hx) fun hword => ?_
  rw [hplaced.span_word hover] at hword
  exact Set.disjoint_left.mp happart.disjoint (hplaced.word_subset hover hword) hx

end Given

namespace Kept

theorem nodup (h : Kept P c) : c.live.Nodup := h.apart.imp fun hapart heq => hapart.ne (congrArg Grant.block heq)

theorem apart_of_ne (h : Kept P c) (hg : g ∈ c.live) (hg' : g' ∈ c.live) (hne : g ≠ g') : Apart g g' :=
  h.apart.forall hg hg' hne

/-- The word below what has been handed out belongs to nobody. -/
theorem header_disjoint (h : Kept P c) (hg : g ∈ c.live) (hg' : g' ∈ c.live) (hover : isPlain g.layout = false) :
    Disjoint g.header g'.span := by
  by_cases heq : g = g'
  · subst heq
    exact Set.disjoint_left.mpr fun x hx hspan => absurd hx.2 (Nat.not_lt.mpr hspan.1)
  · exact (h.apart_of_ne hg hg' heq).disjoint.mono ((h.held g hg).header_subset hover) (h.held g' hg').span_subset

theorem span_disjoint (h : Kept P c) : c.live.Pairwise fun g g' => Disjoint g.span g'.span :=
  h.apart.imp_of_mem fun hg hg' hapart =>
    hapart.disjoint.mono (h.held _ hg).span_subset (h.held _ hg').span_subset

/-- A piece of a new block joins the pieces that are out. -/
theorem cons (h : Kept P c) {l : Layout} {start block : Address} (hnew : Held P s' ⟨l, start, block⟩)
    (hold : ∀ g ∈ c.live, Held P s' g ∧ Apart ⟨l, start, block⟩ g) :
    Kept P { c with state := s', live := ⟨l, start, block⟩ :: c.live } where
  held g hg := by
    obtain rfl | hg := List.mem_cons.mp hg
    · exact hnew
    · exact (hold g hg).1
  apart := List.pairwise_cons.mpr ⟨fun g hg => (hold g hg).2, h.apart⟩

theorem alloc (h : Kept P c) {l : Layout} {start block : Address} {size : UInt64} {calls : List Call}
    (halign : l.align.toNat.isPowerOfTwo) (hrun : c.alloc P l = (some start, s', calls))
    (hcall : .allocate size (some block) ∈ calls) :
    Kept P { c with state := s', live := ⟨l, start, block⟩ :: c.live } := by
  have hways := c.alloc_allocated P l
  rw [hrun] at hways
  cases hways with
  | plain _ hplain hanswer =>
    obtain ⟨-, rfl⟩ : size = requested l ∧ block = start := by simpa using hcall
    have hgiven := P.given hanswer
    exact h.cons (held_plain halign hplain hgiven) fun g hg => (h.held g hg).given hgiven
  | @wide block' s _ hover hrequest hanswer =>
    obtain ⟨-, rfl⟩ : size = requested l ∧ block = block' := by simpa using hcall
    have hgiven := P.given hanswer
    have hplaced := placed_over halign hgiven.aligned hover hrequest hgiven.bounded
    have hwritten := P.written block (wordCovered hplaced hover hgiven)
    refine h.cons (held_over hplaced hover hgiven hwritten) fun g hg => ?_
    obtain ⟨hheld, happart⟩ : Held P s g ∧ Apart ⟨l, block + offset block l.align, block⟩ g :=
      (h.held g hg).given hgiven
    exact ⟨hheld.written hplaced hover happart hwritten, happart⟩

theorem refused (h : Kept P c) {l : Layout} {calls : List Call} (hrun : c.alloc P l = (none, s', calls)) :
    Kept P { c with state := s' } := by
  have hways := c.alloc_allocated P l
  rw [hrun] at hways
  cases hways with
  | unasked => exact h
  | refused _ _ hanswer =>
    obtain ⟨hout, hbytes⟩ := P.refused hanswer
    exact ⟨fun g hg => (h.held g hg).mono_covered (congrFun hout _) fun x hx => hbytes x ((h.held g hg).covered hx),
      h.apart⟩

end Kept

theorem Client.dealloc_unserved (hserving : c.serving = false) (g : Grant) : c.dealloc P g = (c.state, []) := by
  simp only [Client.dealloc, Client.pool?, hserving, Pool.dealloc]
  rfl

theorem Held.dealloc (h : Held P c.state g) (hserving : c.serving = true) :
    c.dealloc P g = ((P.pool.free g.block c.state).2, [.free g.block]) := by
  have hpool : c.pool? P = some (noted P.pool) := if_pos hserving
  simp only [Client.dealloc, hpool, Pool.dealloc]
  cases hplain : isPlain g.layout with
  | true =>
    rw [h.placed.plain hplain]
    rfl
  | false =>
    have hread : (noted P.pool).readWord (g.start - wordSize) (c.state, []) = (g.block, c.state, []) := by
      simp only [noted, h.readWord hplain]
    simp only [Bool.false_eq_true, if_false, bind, StateT.bind, hread]
    rfl

namespace Kept

theorem dealloc (h : Kept P c) {calls : List Call} (hg : g ∈ c.live) (hrun : c.dealloc P g = (s', calls)) :
    Kept P { c with state := s', live := c.live.erase g } where
  held g' hg' := by
    obtain ⟨hne, hmem⟩ := h.nodup.mem_erase_iff.mp hg'
    have hheld := h.held g' hmem
    cases hserving : c.serving with
    | false =>
      rw [Client.dealloc_unserved hserving] at hrun
      cases hrun
      exact hheld
    | true =>
      rw [(h.held g hg).dealloc hserving] at hrun
      cases hrun
      obtain ⟨hout, hbytes⟩ := P.freed (h.held g hg).out
      have hkept : P.blockAt (P.pool.free g.block c.state).2 g'.block = P.blockAt c.state g'.block := by
        rw [hout, Function.update_of_ne (h.apart_of_ne hmem hg hne).ne]
      exact hheld.mono_covered hkept fun x hx => hbytes x ⟨g'.block, _, hkept.trans hheld.out, hx⟩
  apart := h.apart.sublist List.erase_sublist

theorem write (h : Kept P c) (hout : P.blockAt s' = P.blockAt c.state)
    (hbytes : ∀ x, (∀ g ∈ c.live, x ∉ g.span) → P.byteAt s' x = P.byteAt c.state x) :
    Kept P { c with state := s' } where
  held g hg := (h.held g hg).mono (congrFun hout _) fun hover x hx =>
    hbytes x fun _ hg' => Set.disjoint_left.mp (h.header_disjoint hg hg' hover) hx
  apart := h.apart

theorem step (h : Kept P c) (hstep : Step P c c') : Kept P c' := by
  cases hstep with
  | alloc halign hrun hcall => exact h.alloc halign hrun hcall
  | refused hrun => exact h.refused hrun
  | dealloc hg hrun => exact h.dealloc hg hrun
  | write hout hbytes => exact h.write hout hbytes
  | serve => exact ⟨h.held, h.apart⟩

end Kept

theorem Reached.kept (h : Reached P c) : Kept P c := by
  induction h with
  | start s serving => exact ⟨nofun, List.Pairwise.nil⟩
  | step _ hstep ih => exact ih.step hstep

end Kept

/-! ## What a client is served -/

section Served

variable {σ : Type}

structure Served (P : Arena σ) (c : Client σ) : Prop where
  /-- Each piece begins at a multiple of its alignment and lies in the block that was asked for. -/
  placed : ∀ g ∈ c.live, g.layout.align.toNat ∣ g.start.toNat ∧
    P.blockAt c.state g.block = some (requested g.layout) ∧ g.block.toNat ≤ g.start.toNat ∧
    g.start.toNat + g.layout.size.toNat ≤ g.block.toNat + (requested g.layout).toNat
  /-- For a larger alignment the word below the piece has the address of the block, and it lies in the block and
      in no piece. -/
  word : ∀ g ∈ c.live, blockAlign < g.layout.align →
    P.bytesAt c.state (g.start.toNat - 8) 8 = leBytes 8 g.block.toNat ∧ g.block.toNat + 8 ≤ g.start.toNat ∧
    ∀ g' ∈ c.live, Disjoint g.header g'.span
  apart : c.live.Pairwise fun g g' => Disjoint g.span g'.span
  /-- A piece that is given back gives the pool its block, and nothing else. -/
  freed : ∀ g ∈ c.live, (c.dealloc P g).2 = if c.serving then [.free g.block] else []
  /-- There is no memory exactly when there is no pool, no such number of bytes, or no such block. -/
  refused : ∀ l : Layout, (c.alloc P l).1 = none ↔
    c.serving = false ∨ UInt64.size ≤ l.size.toNat + l.align.toNat ∨
      (P.pool.allocate (requested l) c.state).1 = none
  /-- Memory comes from one call to the pool. -/
  granted : ∀ (l : Layout) (start : Address), (c.alloc P l).1 = some start →
    ∃ block, (c.alloc P l).2.2 = [.allocate (requested l) (some block)]

variable {P : Arena σ} {c : Client σ} {l : Layout}

/-- No pool has a block of nearly all addresses, as none lies below eight. -/
theorem View.Given.size_lt {v : View σ} {s s' : σ} {block : Address} {size : UInt64} (h : v.Given size s block s') :
    size.toNat + 8 < UInt64.size := by
  have hne : block.toNat ≠ 0 := fun hzero => h.notNull (UInt64.toNat_inj.mp hzero)
  have hle := Nat.le_of_dvd (Nat.pos_of_ne_zero hne) h.aligned
  have hbounded := h.bounded
  omega

theorem alloc_refused_iff (P : Arena σ) (c : Client σ) (l : Layout) :
    (c.alloc P l).1 = none ↔ c.serving = false ∨ UInt64.size ≤ l.size.toNat + l.align.toNat ∨
      (P.pool.allocate (requested l) c.state).1 = none := by
  have hways := c.alloc_allocated P l
  generalize c.alloc P l = answer at hways
  cases hways with
  | unasked h => exact iff_of_true rfl (h.imp_right fun hrequest => .inl (request?_eq_none_iff.mp hrequest).2)
  | refused _ _ hanswer => exact iff_of_true rfl (.inr (.inr (by rw [hanswer])))
  | plain hserving hplain hanswer =>
    have hsize := (P.given hanswer).size_lt
    rw [requested, if_pos hplain] at hsize
    have halign := isPlain_iff.mp hplain
    rw [hserving, hanswer]
    refine iff_of_false nofun ?_
    rintro (h | h | h)
    · cases h
    · omega
    · cases h
  | wide hserving hover hrequest hanswer =>
    rw [hserving, hanswer]
    refine iff_of_false nofun ?_
    rintro (h | h | h)
    · cases h
    · rw [request?_eq_none_iff.mpr ⟨hover, h⟩] at hrequest
      cases hrequest
    · cases h

theorem alloc_granted {start : Address} (h : (c.alloc P l).1 = some start) :
    ∃ block, (c.alloc P l).2.2 = [.allocate (requested l) (some block)] := by
  have hways := c.alloc_allocated P l
  generalize c.alloc P l = answer at hways h
  cases hways with
  | unasked => cases h
  | refused => cases h
  | plain => exact ⟨_, rfl⟩
  | wide => exact ⟨_, rfl⟩

/-- Whatever a client asks for, gives back and writes in what it holds, it is served. -/
theorem clients_are_served (h : Reached P c) : Served P c where
  placed g hg := by
    have hheld := h.kept.held g hg
    exact ⟨hheld.placed.aligned, hheld.out, hheld.placed.le, hheld.placed.inside⟩
  word g hg halign := by
    have hover : isPlain g.layout = false := decide_eq_false (UInt64.not_le.mpr halign)
    have hheld := h.kept.held g hg
    exact ⟨hheld.kept hover, hheld.placed.below hover, fun g' hg' => h.kept.header_disjoint hg hg' hover⟩
  apart := h.kept.span_disjoint
  freed g hg := by
    cases hserving : c.serving with
    | false => rw [Client.dealloc_unserved hserving]; rfl
    | true => rw [(h.kept.held g hg).dealloc hserving]; rfl
  refused := alloc_refused_iff P c
  granted _ _ := alloc_granted

end Served

/-! ## A pool that goes up through memory -/

/-- Memory whose blocks are given out one behind the other, from the second word on. -/
structure Bump where
  /-- The words behind the first that have been given out. -/
  used : Nat
  byteAt : Nat → UInt8
  blockAt : Address → Option UInt64
  below : ∀ block size, blockAt block = some size → block.toNat + size.toNat < 8 * (used + 1)

namespace Bump

def empty : Bump := ⟨0, fun _ => 0, fun _ => none, nofun⟩

/-- Where the next block starts. -/
def next (m : Bump) : Nat := 8 * (m.used + 1)

theorem toNat_next {m : Bump} {size : UInt64} (h : m.next + size.toNat < UInt64.size) :
    (UInt64.ofNat m.next).toNat = m.next := UInt64.toNat_ofNat_of_lt (by omega)

/-- The memory with the next block out. -/
def take (size : UInt64) (m : Bump) (h : m.next + size.toNat < UInt64.size) : Bump where
  used := m.used + size.toNat / 8 + 1
  byteAt := m.byteAt
  blockAt := Function.update m.blockAt (UInt64.ofNat m.next) (some size)
  below block n hblock := by
    have hnext : m.next = 8 * (m.used + 1) := rfl
    by_cases heq : block = UInt64.ofNat m.next
    · rw [heq, Function.update_self, Option.some.injEq] at hblock
      rw [heq, toNat_next h, ← hblock]
      omega
    · rw [Function.update_of_ne heq] at hblock
      have := m.below block n hblock
      omega

def allocate (size : UInt64) (m : Bump) : Option Address × Bump :=
  if h : m.next + size.toNat < UInt64.size then (some (UInt64.ofNat m.next), m.take size h) else (none, m)

def free (block : Address) (m : Bump) : Bump :=
  { m with
    blockAt := Function.update m.blockAt block none
    below := fun other n hother => by
      by_cases heq : other = block
      · rw [heq, Function.update_self] at hother
        cases hother
      · rw [Function.update_of_ne heq] at hother
        exact m.below other n hother }

def view : View Bump := ⟨byteAt, blockAt⟩

def writeWord (a : Address) (word : UInt64) (m : Bump) : Bump :=
  { m with
    byteAt := fun x =>
      if a.toNat ≤ x ∧ x < a.toNat + 8 then (leBytes 8 word.toNat).getD (x - a.toNat) 0 else m.byteAt x }

theorem given {size : UInt64} {m m' : Bump} {block : Address} (h : m.allocate size = (some block, m')) :
    view.Given size m block m' := by
  rw [allocate] at h
  split at h
  case isFalse => cases h
  case isTrue hlt =>
    cases h
    have hnext : m.next = 8 * (m.used + 1) := rfl
    have hstart := toNat_next hlt
    refine
      { notNull := fun hzero => ?_
        aligned := ⟨m.used + 1, hstart⟩
        bounded := by rwa [hstart]
        fresh := ?_
        apart := fun other n hother => ?_
        blocks := rfl
        bytes := fun _ _ => rfl }
    · rw [hzero, hnext] at hstart
      exact absurd hstart (Nat.mul_ne_zero (by decide) m.used.succ_ne_zero).symm
    · by_contra hsome
      obtain ⟨n, hn⟩ := Option.ne_none_iff_exists'.mp hsome
      have := m.below _ n hn
      omega
    · have hbelow := m.below other n hother
      exact Set.disjoint_left.mpr fun x hx hspan => by
        have := hx.2
        have := hspan.1
        omega

theorem refused {size : UInt64} {m m' : Bump} (h : m.allocate size = (none, m')) : m' = m := by
  rw [allocate] at h
  split at h
  · cases h
  · cases h
    rfl

theorem written {m : Bump} {a : Address} (word : UInt64) : view.Written a word m (m.writeWord a word) where
  blocks := rfl
  word := List.ext_getElem (by simp [View.bytesAt, length_leBytes]) fun i _ hi => by
    rw [length_leBytes] at hi
    simp [View.bytesAt, view, writeWord, hi, length_leBytes]
  bytes _ _ hx := if_neg fun h => hx h

def arena : Arena Bump where
  toView := view
  pool :=
    { allocate
      free := fun block m => ((), m.free block)
      readWord := fun a m => (UInt64.ofNat (leNat (view.bytesAt m a.toNat 8)), m)
      writeWord := fun a word m => ((), m.writeWord a word) }
  refused h := by
    rw [refused h]
    exact ⟨rfl, fun _ _ => rfl⟩
  given := given
  freed _ := ⟨rfl, fun _ _ => rfl⟩
  read _ := rfl
  written word _ := written word

/-- The client sets a byte of what it holds. -/
theorem reached_set {c : Client Bump} (h : Reached arena c) {g : Grant} (hg : g ∈ c.live) {x : Nat}
    (hx : x ∈ g.span) (b : UInt8) :
    Reached arena { c with state := { c.state with byteAt := Function.update c.state.byteAt x b } } :=
  .step h (.write rfl fun y hy => by
    have hne : y ≠ x := fun heq => hy g hg (by rwa [heq])
    exact Function.update_of_ne hne b c.state.byteAt)

/-- A piece of 24 bytes at a multiple of 64 and one of five bytes, whose first byte the client has set. -/
theorem clients_are_served_bump : ∃ c, Reached arena c ∧
    c.live = [⟨⟨5, 1⟩, 104, 104⟩, ⟨⟨24, 64⟩, 64, 8⟩] ∧ arena.byteAt c.state 104 = 7 ∧ Served arena c := by
  have hfirst : Reached arena ⟨_, true, [⟨⟨24, 64⟩, 64, 8⟩]⟩ :=
    .step (.start empty true) (.alloc ⟨6, rfl⟩ rfl (List.mem_singleton.mpr rfl))
  have hsecond : Reached arena ⟨_, true, [⟨⟨5, 1⟩, 104, 104⟩, ⟨⟨24, 64⟩, 64, 8⟩]⟩ :=
    hfirst.step (.alloc ⟨0, rfl⟩ rfl (List.mem_singleton.mpr rfl))
  have hset := reached_set hsecond List.mem_cons_self (x := 104) ⟨by decide, by decide⟩ 7
  exact ⟨_, hset, rfl, rfl, clients_are_served hset⟩

end Bump

end NetBoot.Uefi.Pool
