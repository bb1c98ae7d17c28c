import Mathlib.Data.List.Basic

/-! The reader of a child's error output, which keeps the last bytes. Each read fills the front of one buffer, and a
read of nothing ends the stream. A range outside of its vector is a panic, which is `none` here. -/

namespace AtmCore

open List Option

/-- One read of the stream: the buffer and how many of its bytes are new. -/
structure StreamRead where
  buffer : List UInt8
  read : Nat
  size : buffer.length = 8192
  fits : read ≤ 8192

def StreamRead.bytes (read : StreamRead) : List UInt8 := read.buffer.take read.read

def byteRange (bytes : List UInt8) (start stop : Nat) : Option (List UInt8) :=
  if start ≤ stop ∧ stop ≤ bytes.length then some ((bytes.take stop).drop start) else none

/-- `Vec::copy_within(start.., 0)`. -/
def copyWithin (bytes : List UInt8) (start : Nat) : Option (List UInt8) :=
  if start ≤ bytes.length then some (bytes.drop start ++ bytes.drop (bytes.length - start)) else none

def shiftTail (tail : List UInt8) (overflow : Nat) : Option (List UInt8) :=
  if 0 < overflow then (copyWithin tail overflow).map (List.take (tail.length - overflow)) else some tail

def keepTail (cap : Nat) (tail : List UInt8) (read : StreamRead) : Option (List UInt8) :=
  if cap ≤ read.read then byteRange read.buffer (read.read - cap) read.read
  else do return (← shiftTail tail (tail.length + read.read - cap)) ++ (← byteRange read.buffer 0 read.read)

def readTail (cap : Nat) (tail : List UInt8) : List StreamRead → Option (List UInt8)
  | [] => some tail
  | read :: reads => if read.read = 0 then some tail else do readTail cap (← keepTail cap tail read) reads

def lastBytes (cap : Nat) (stream : List UInt8) : List UInt8 := stream.drop (stream.length - cap)

/-- The reads before the end of the stream. -/
def readsOf (reads : List StreamRead) : List StreamRead := reads.takeWhile (fun read => read.read ≠ 0)

section Reads

variable {cap : Nat} {tail stream : List UInt8} {reads : List StreamRead}

theorem length_lastBytes : (lastBytes cap stream).length = min cap stream.length := by
  rw [lastBytes, length_drop]
  omega

theorem byteRange_bytes (read : StreamRead) {start : Nat} (h : start ≤ read.read) :
    byteRange read.buffer start read.read = some (read.bytes.drop start) :=
  if_pos ⟨h, read.size ▸ read.fits⟩

theorem shiftTail_eq {overflow : Nat} (h : overflow ≤ tail.length) :
    shiftTail tail overflow = some (tail.drop overflow) := by
  rw [shiftTail]
  split
  · rw [copyWithin, if_pos h, map_some, take_append_of_le_length (by simp), take_of_length_le (by simp)]
  · next hnone => rw [Nat.eq_zero_of_not_pos hnone, drop_zero]

theorem keepTail_lastBytes (read : StreamRead) :
    keepTail cap (lastBytes cap stream) read = some (lastBytes cap (stream ++ read.bytes)) := by
  have hlen : read.bytes.length = read.read := by
    rw [StreamRead.bytes, length_take, read.size]
    exact Nat.min_eq_left read.fits
  have hsize := @length_lastBytes cap stream
  rw [keepTail]
  split
  · next hcap =>
    -- the read alone fills the tail
    have hnone : stream.drop (stream.length + read.read - cap) = [] := drop_eq_nil_iff.mpr (by omega)
    rw [byteRange_bytes read (Nat.sub_le _ _), lastBytes, length_append, hlen, drop_append, hnone, nil_append]
    congr 2
    omega
  · next hcap =>
    rw [shiftTail_eq (by omega), byteRange_bytes read (Nat.zero_le _), hsize, lastBytes, drop_drop, drop_zero,
      lastBytes, length_append, hlen, drop_append_of_le_length (by omega)]
    refine congrArg (fun start => some (stream.drop start ++ read.bytes)) ?_
    omega

theorem keptTail_lastBytes :
    reads.foldlM (keepTail cap) (lastBytes cap stream) =
      some (lastBytes cap (stream ++ reads.flatMap StreamRead.bytes)) := by
  induction reads generalizing stream with
  | nil =>
    rw [flatMap_nil, append_nil]
    rfl
  | cons read reads ih =>
    rw [foldlM_cons, keepTail_lastBytes, bind_eq_bind, bind_some, ih, flatMap_cons, append_assoc]

theorem readTail_eq : readTail cap tail reads = (readsOf reads).foldlM (keepTail cap) tail := by
  induction reads generalizing tail with
  | nil => rfl
  | cons read reads ih =>
    rw [readTail, readsOf]
    by_cases hread : read.read = 0
    · rw [if_pos hread, takeWhile_cons_of_neg (by simp [hread])]
      rfl
    · rw [if_neg hread, takeWhile_cons_of_pos (by simp [hread]), foldlM_cons]
      exact congrArg _ (funext (fun tail => ih))

end Reads

/-- However a stream comes in reads, the reader returns its last bytes, and after every read it has kept at most as
many as the cap. -/
theorem tail_reader_exact (cap : Nat) (reads : List StreamRead) :
    readTail cap [] reads = some (lastBytes cap ((readsOf reads).flatMap StreamRead.bytes)) ∧
      (lastBytes cap ((readsOf reads).flatMap StreamRead.bytes)).length =
        min cap ((readsOf reads).flatMap StreamRead.bytes).length ∧
      ∀ before, before <+: readsOf reads → ∃ tail, before.foldlM (keepTail cap) [] = some tail ∧ tail.length ≤ cap := by
  have hkept : ∀ before : List StreamRead, before.foldlM (keepTail cap) [] =
      some (lastBytes cap (before.flatMap StreamRead.bytes)) := by
    intro before
    have h := @keptTail_lastBytes cap [] before
    rwa [show lastBytes cap [] = [] from drop_nil, nil_append] at h
  refine ⟨readTail_eq.trans (hkept _), length_lastBytes, fun before _ => ⟨_, hkept before, ?_⟩⟩
  rw [length_lastBytes]
  exact Nat.min_le_left ..

end AtmCore
