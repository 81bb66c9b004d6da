import Mathlib.Data.List.Basic

/-!
Open file descriptions: the bytes of a file and the offset that every descriptor of the
description shares, and the reading of a whole file through a stdio stream.
-/

namespace OpenFiles

structure OpenFile where
  content : List UInt8
  offset : Nat
  deriving DecidableEq

namespace OpenFile

def fresh : OpenFile := ⟨[], 0⟩

/-- The bytes go where the offset stands, over what is there; a gap before them is zeros. -/
def write (file : OpenFile) (bytes : List UInt8) : OpenFile :=
  if bytes = [] then file
  else
    { content := file.content.take file.offset ++
        List.replicate (file.offset - file.content.length) 0 ++ bytes ++
        file.content.drop (file.offset + bytes.length)
      offset := file.offset + bytes.length }

def ftruncate (file : OpenFile) (length : Nat) : OpenFile :=
  { file with
    content := file.content.take length ++ List.replicate (length - file.content.length) 0 }

def lseek (file : OpenFile) (offset : Nat) : OpenFile := { file with offset := offset }

def AtEnd (file : OpenFile) : Prop := file.offset = file.content.length

theorem fresh_atEnd : fresh.AtEnd := rfl

theorem AtEnd.write_content {file : OpenFile} (at_end : file.AtEnd) (bytes : List UInt8) :
    (file.write bytes).content = file.content ++ bytes := by
  by_cases none_left : bytes = []
  · rw [write, if_pos none_left, none_left, List.append_nil]
  · have offset : file.offset = file.content.length := at_end
    simp only [write, if_neg none_left, offset, List.take_length, Nat.sub_self,
      List.replicate_zero, List.append_nil]
    rw [List.drop_eq_nil_of_le (Nat.le_add_right _ _), List.append_nil]

theorem AtEnd.write {file : OpenFile} (at_end : file.AtEnd) (bytes : List UInt8) :
    (file.write bytes).AtEnd := by
  have content := at_end.write_content bytes
  have offset : file.offset = file.content.length := at_end
  rw [AtEnd, content, List.length_append, OpenFile.write]
  by_cases none_left : bytes = []
  · rw [if_pos none_left, none_left, offset]
    rfl
  · rw [if_neg none_left, offset]

theorem ftruncate_lseek (file : OpenFile) : (file.ftruncate 0).lseek 0 = fresh := by
  simp only [ftruncate, lseek, fresh, List.take_zero, Nat.zero_sub, List.replicate_zero,
    List.append_nil]

theorem AtEnd.eq_fresh {file : OpenFile} (at_end : file.AtEnd) (empty : file.content = []) :
    file = fresh := by
  obtain ⟨content, offset⟩ := file
  have length : offset = content.length := at_end
  have none_left : content = [] := empty
  rw [length, none_left]
  rfl

end OpenFile

/-- `fseek` to the end, `ftell`, `fseek` to the start and `fread` of that many bytes, on a stream
that still buffers the head of the file from before: a seek that lands in the buffer stays
there, so that the read does not look at the file. -/
def readWhole (buffered content : List UInt8) : List UInt8 :=
  if content.length < buffered.length then buffered.take content.length else content

/-- What the stream buffers after that: the last block, which is of use only as the head. -/
def buffersAfter (blksize : Nat) (buffered content : List UInt8) : List UInt8 :=
  if content.length < buffered.length then buffered
  else if content.length < blksize then content
  else []

theorem readWhole_fresh (content : List UInt8) : readWhole [] content = content :=
  if_neg (Nat.not_lt_zero _)

/-- The file is read as it is if the buffer is no longer than it, or starts with it. -/
theorem readWhole_eq_iff (buffered content : List UInt8) :
    readWhole buffered content = content ↔
      buffered.length ≤ content.length ∨ content <+: buffered := by
  unfold readWhole
  by_cases short : content.length < buffered.length
  · rw [if_pos short]
    constructor
    · intro same
      exact Or.inr (List.prefix_iff_eq_take.mpr same.symm)
    · rintro (long | head)
      · omega
      · exact (List.prefix_iff_eq_take.mp head).symm
  · rw [if_neg short]
    exact ⟨fun _ => Or.inl (Nat.le_of_not_lt short), fun _ => rfl⟩

/-- The bytes up to the first zero: what a `std::string` takes from a `char*`. -/
def cString (bytes : List UInt8) : List UInt8 := bytes.takeWhile (· ≠ 0)

theorem cString_terminated {bytes : List UInt8} (no_zero : 0 ∉ bytes) :
    cString (bytes ++ [0]) = bytes := by
  have all_kept : ∀ byte ∈ bytes, decide (byte ≠ 0) = true := by
    intro byte member
    exact decide_eq_true fun zero => no_zero (zero ▸ member)
  rw [cString, List.takeWhile_append_of_pos all_kept]
  exact List.append_nil bytes

end OpenFiles
