import Horizon.Lib.RunLength

/-!
# Swap compression

This module follows `swap_compress_page`, `swap_decompress_page` and the
run-length coder behind them in `swap_compress.c`.  Buffers are lists of bytes;
the statistics of the module are left out.
-/

namespace Horizon
namespace Swap

open List RunLength

def pageSize : Nat := 4096

inductive Errno where
  | einval
  | enomem
  | enoent
  | ebusy
  | eio
  | enospc
deriving DecidableEq

/-- `swap_compress_algo_t` -/
inductive Algo where
  | none
  | lz4
  | zlib
  | zstd
deriving DecidableEq

def compressLoop (outSize : Nat) :
    Nat -> List UInt8 -> List UInt8 -> Except Errno (List UInt8)
  | 0, _, dst => Except.ok dst
  | _ + 1, [], dst => Except.ok dst
  | n + 1, value :: rest, dst =>
      if dst.length + 2 > outSize then Except.error Errno.enospc
      else
        compressLoop outSize n (rest.drop (runOf value 254 rest))
          (dst ++ [UInt8.ofNat (runOf value 254 rest + 1), value])

def swapCompressLz4 (src : List UInt8) (outSize : Nat) :
    Except Errno (List UInt8) :=
  compressLoop outSize src.length src []

def swapCompressZlib (src : List UInt8) (outSize : Nat) :
    Except Errno (List UInt8) :=
  swapCompressLz4 src outSize

def swapCompressZstd (src : List UInt8) (outSize : Nat) :
    Except Errno (List UInt8) :=
  swapCompressLz4 src outSize

/--
The loop of `swap_decompress_lz4`.  The value of a run whose length is the last
byte of the input is read past the buffer; it is taken to be zero.
-/
def decompressLoop (outSize : Nat) :
    Nat -> List UInt8 -> List UInt8 -> Except Errno (List UInt8)
  | 0, _, dst => Except.ok dst
  | _ + 1, [], dst => Except.ok dst
  | n + 1, run :: rest, dst =>
      if dst.length + run.toNat > outSize then Except.error Errno.enospc
      else
        decompressLoop outSize n rest.tail
          (dst ++ List.replicate run.toNat (rest.headD 0))

def swapDecompressLz4 (src : List UInt8) (outSize : Nat) :
    Except Errno (List UInt8) :=
  decompressLoop outSize src.length src []

def swapDecompressZlib (src : List UInt8) (outSize : Nat) :
    Except Errno (List UInt8) :=
  swapDecompressLz4 src outSize

def swapDecompressZstd (src : List UInt8) (outSize : Nat) :
    Except Errno (List UInt8) :=
  swapDecompressLz4 src outSize

def copyPage (src : List UInt8) (outSize : Nat) : Except Errno (List UInt8) :=
  if outSize < src.length then Except.error Errno.enospc else Except.ok src

/-- A coder that fails or produces nothing is replaced by a copy. -/
def orCopy (res : Except Errno (List UInt8)) (src : List UInt8)
    (outSize : Nat) : Except Errno (List UInt8) :=
  match res with
  | Except.ok [] => copyPage src outSize
  | Except.ok (b :: dst) => Except.ok (b :: dst)
  | Except.error _ => copyPage src outSize

def swapCompressPage (algo : Algo) (src : List UInt8) (outSize : Nat) :
    Except Errno (List UInt8) :=
  if src.length = 0 ∨ outSize = 0 then Except.error Errno.einval
  else
    match algo with
    | Algo.none => copyPage src outSize
    | Algo.lz4 => orCopy (swapCompressLz4 src outSize) src outSize
    | Algo.zlib => orCopy (swapCompressZlib src outSize) src outSize
    | Algo.zstd => orCopy (swapCompressZstd src outSize) src outSize

/-- A decoder that fails or produces nothing is an I/O error. -/
def orEio (res : Except Errno (List UInt8)) : Except Errno (List UInt8) :=
  match res with
  | Except.ok [] => Except.error Errno.eio
  | Except.ok (b :: dst) => Except.ok (b :: dst)
  | Except.error _ => Except.error Errno.eio

def swapDecompressPage (algo : Algo) (src : List UInt8) (outSize : Nat) :
    Except Errno (List UInt8) :=
  if src.length = 0 ∨ outSize = 0 then Except.error Errno.einval
  else
    match algo with
    | Algo.none => copyPage src outSize
    | Algo.lz4 => orEio (swapDecompressLz4 src outSize)
    | Algo.zlib => orEio (swapDecompressZlib src outSize)
    | Algo.zstd => orEio (swapDecompressZstd src outSize)

/-!
## Runs as bytes
-/

def runBytes : List (Nat × UInt8) -> List UInt8
  | [] => []
  | run :: runs => UInt8.ofNat run.1 :: run.2 :: runBytes runs

theorem length_runBytes (runs : List (Nat × UInt8)) :
    (runBytes runs).length = 2 * runs.length := by
  induction runs with
  | nil => rfl
  | cons run runs ih =>
    unfold runBytes
    rw [length_cons, length_cons, length_cons, ih]
    omega

variable {outSize : Nat} {dst src page : List UInt8} {algo : Algo}

theorem compressLoop_eq {n : Nat}
    (h : dst.length + 2 * (encode 255 n src).length <= outSize) :
    compressLoop outSize n src dst =
      .ok (dst ++ runBytes (encode 255 n src)) := by
  induction n generalizing src dst with
  | zero =>
    unfold compressLoop encode runBytes
    rw [append_nil]
  | succ n ih =>
    cases src with
    | nil =>
      unfold compressLoop encode runBytes
      rw [append_nil]
    | cons value rest =>
      unfold encode at h ⊢
      unfold compressLoop runBytes
      rw [length_cons, show 255 - 1 = 254 from rfl] at h
      rw [if_neg (by omega), ih]
      · rw [append_assoc]
        rfl
      · rw [length_append]
        show dst.length + 2 + 2 * (encode 255 n _).length <= outSize
        omega

theorem decompressLoop_eq {n : Nat} {runs : List (Nat × UInt8)}
    (hn : 2 * runs.length <= n)
    (hruns : forall run, run ∈ runs -> 1 <= run.1 ∧ run.1 <= 255)
    (h : dst.length + (decode runs).length <= outSize) :
    decompressLoop outSize n (runBytes runs) dst =
      .ok (dst ++ decode runs) := by
  induction runs generalizing n dst with
  | nil =>
    rw [show decode ([] : List (Nat × UInt8)) = [] from rfl, append_nil]
    cases n with
    | zero => rfl
    | succ n => rfl
  | cons run runs ih =>
    cases n with
    | zero =>
      rw [length_cons] at hn
      omega
    | succ n =>
      have hrun := hruns run mem_cons_self
      have hbyte : (UInt8.ofNat run.1).toNat = run.1 := by
        exact Nat.mod_eq_of_lt (by omega)
      unfold decode at h ⊢
      rw [length_append, length_replicate] at h
      rw [length_cons] at hn
      unfold runBytes decompressLoop
      rw [hbyte, if_neg (by omega)]
      show decompressLoop outSize n (runBytes runs)
        (dst ++ List.replicate run.1 run.2) = _
      rw [ih (by omega), append_assoc]
      · exact fun r hr => hruns r (mem_cons_of_mem run hr)
      · rw [length_append, length_replicate]
        omega

def coded (src : List UInt8) : List UInt8 :=
  runBytes (encode 255 src.length src)

theorem length_coded_le (src : List UInt8) :
    (coded src).length <= 2 * src.length := by
  unfold coded
  rw [length_runBytes]
  exact Nat.mul_le_mul_left 2 (encode_length_le 255 src.length src)

theorem length_coded_pos (h : src ≠ []) : 0 < (coded src).length := by
  cases src with
  | nil => exact absurd rfl h
  | cons v l => exact Nat.succ_pos _

theorem swapCompressLz4_eq (h : (coded src).length <= outSize) :
    swapCompressLz4 src outSize = .ok (coded src) := by
  unfold coded at h
  rw [length_runBytes] at h
  unfold swapCompressLz4
  rw [compressLoop_eq (by rwa [length_nil, Nat.zero_add]), nil_append]
  rfl

theorem swapDecompressLz4_coded (src : List UInt8) :
    swapDecompressLz4 (coded src) src.length = .ok src := by
  have hdecode := decode_encode 255 (Nat.le_refl src.length)
  unfold swapDecompressLz4 coded
  rw [decompressLoop_eq, hdecode, nil_append]
  · exact Nat.le_of_eq (length_runBytes _).symm
  · exact fun run hrun => encode_bounds (by decide) hrun
  · rw [hdecode]
    exact Nat.le_of_eq (Nat.zero_add _)

def packed (algo : Algo) (page : List UInt8) : List UInt8 :=
  if algo = Algo.none then page else runBytes (encode 255 page.length page)

theorem packed_length (algo : Algo) (hpage : page.length = pageSize) :
    0 < (packed algo page).length ∧
      (packed algo page).length <= 2 * pageSize := by
  unfold packed
  split
  case isTrue halgo =>
    rw [hpage]
    decide
  case isFalse halgo =>
    rw [← hpage]
    refine ⟨length_coded_pos ?_, length_coded_le page⟩
    rintro rfl
    cases hpage

theorem orCopy_of_pos (h : 0 < dst.length) :
    orCopy (.ok dst) src outSize = .ok dst := by
  cases dst with
  | nil => cases h
  | cons b dst => rfl

theorem orEio_of_pos (h : 0 < dst.length) :
    orEio (.ok dst) = .ok dst := by
  cases dst with
  | nil => cases h
  | cons b dst => rfl

theorem swapCompressPage_eq (hpage : page.length = pageSize) :
    swapCompressPage algo page (2 * pageSize) = .ok (packed algo page) := by
  have hlength := packed_length algo hpage
  have hpos : ¬ (page.length = 0 ∨ 2 * pageSize = 0) := by
    rw [hpage]
    decide
  have hcopy : copyPage page (2 * pageSize) = .ok page := by
    unfold copyPage
    rw [hpage, if_neg (by decide)]
  have hcode : algo ≠ .none ->
      orCopy (swapCompressLz4 page (2 * pageSize)) page (2 * pageSize) =
        .ok (packed algo page) := by
    intro halgo
    have hpacked : packed algo page = coded page := if_neg halgo
    rw [hpacked] at hlength ⊢
    rw [swapCompressLz4_eq hlength.right, orCopy_of_pos hlength.left]
  unfold swapCompressPage
  rw [if_neg hpos]
  cases algo with
  | none => exact hcopy
  | lz4 => exact hcode (by decide)
  | zlib => exact hcode (by decide)
  | zstd => exact hcode (by decide)

theorem swapDecompressPage_packed (hpage : page.length = pageSize)
    (halgo : algo ≠ .none) :
    swapDecompressPage algo (packed algo page) pageSize = .ok page := by
  have hlength := packed_length algo hpage
  have hpos : ¬ ((packed algo page).length = 0 ∨ pageSize = 0) := by
    rintro (hzero | hzero)
    · omega
    · cases hzero
  have hcode : orEio (swapDecompressLz4 (packed algo page) pageSize) =
      .ok page := by
    rw [show packed algo page = coded page from if_neg halgo, ← hpage,
      swapDecompressLz4_coded, orEio_of_pos (by rw [hpage]; decide)]
  unfold swapDecompressPage
  rw [if_neg hpos]
  cases algo with
  | none => exact absurd rfl halgo
  | lz4 => exact hcode
  | zlib => exact hcode
  | zstd => exact hcode

end Swap
end Horizon
