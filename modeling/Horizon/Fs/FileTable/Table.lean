import Horizon.Fs.FileTable.Model

/-!
# One file table

What a file table keeps under the calls that stay inside of its bitmaps.  In the
arrays of the structure itself the table has 64 slots and 32 bits, and the
close-on-exec bit of descriptor `32 + i` is the open bit of descriptor `i`.
-/

namespace Horizon
namespace FileTable

open Function WordBits

/-!
## Bitmaps
-/

def Bitmaps.shape : Bitmaps -> Option Nat
  | Bitmaps.inline _ => none
  | Bitmaps.grown words _ _ => some words

variable {b : Bitmaps} {fd : Nat} {value : Bool} {t : Files}

theorem Bitmaps.size_eq {b' : Bitmaps} (h : b'.shape = b.shape) :
    b'.size = b.size := by
  cases b with
  | inline word =>
    cases b' with
    | inline word' => rfl
    | grown words' c' o' => cases h
  | grown words c o =>
    cases b' with
    | inline word' => cases h
    | grown words' c' o' =>
      cases h
      rfl

theorem Bitmaps.reaches_of_lt (h : fd < b.size) : b.Reaches (fd / 32 + 1) := by
  cases b with
  | inline word =>
    have hlt : fd < 32 := h
    show fd / 32 + 1 < 49
    omega
  | grown words c o =>
    have hlt : fd < 32 * words := h
    show fd / 32 + 1 <= words
    omega

theorem isOpen_inline (word : Words) (fd : Nat) :
    (Bitmaps.inline word).isOpen fd = test word (fd + 32) := by
  unfold Bitmaps.isOpen Bitmaps.openWords test
  have hdiv : (fd + 32) / 32 = fd / 32 + 1 := by omega
  have hmod : (fd + 32) % 32 = fd % 32 := by omega
  rw [hdiv, hmod]

theorem exists_changeOpen (h : fd < b.size) {change : Words -> Nat -> Words}
    (hchange : forall w i j, test (change w j) i =
      if i = j then value else test w i) :
    exists b', b.changeOpen change fd = some b' ∧ b'.shape = b.shape ∧
      forall i, b'.isOpen i = if i = fd then value else b.isOpen i := by
  unfold Bitmaps.changeOpen
  rw [if_pos (Bitmaps.reaches_of_lt h)]
  cases b with
  | inline word =>
    refine ⟨_, rfl, rfl, ?_⟩
    intro i
    rw [isOpen_inline, isOpen_inline, hchange]
    simp only [Nat.add_right_cancel_iff]
  | grown words c o =>
    refine ⟨_, rfl, rfl, ?_⟩
    intro i
    exact hchange o i fd

theorem exists_changeClose (h : fd < b.size) {change : Words -> Nat -> Words}
    (hchange : forall w i j, test (change w j) i =
      if i = j then value else test w i) :
    exists b', b.changeClose change fd = some b' ∧ b'.shape = b.shape ∧
      forall i, b'.isOpen i = b.isOpen i := by
  unfold Bitmaps.changeClose
  rw [if_pos (Bitmaps.reaches_of_lt h)]
  cases b with
  | inline word =>
    refine ⟨_, rfl, rfl, ?_⟩
    intro i
    have hlt : fd < 32 := h
    rw [isOpen_inline, isOpen_inline, hchange, if_neg (by omega)]
  | grown words c o => exact ⟨_, rfl, rfl, fun _ => rfl⟩

theorem exists_setCloseOnExec (h : fd < b.size) (cloexec : Bool) :
    exists b', setCloseOnExec b fd cloexec = some b' ∧ b'.shape = b.shape ∧
      forall i, b'.isOpen i = b.isOpen i := by
  cases cloexec with
  | true => exact exists_changeClose h test_set
  | false => exact exists_changeClose h test_clear

/-!
## The invariant
-/

def BitsFit (maxFds : Nat) : Option Nat -> Prop
  | none => maxFds = nrOpenDefault
  | some words => 32 * words = maxFds

structure FilesOk (t : Files) : Prop where
  large : nrOpenDefault <= t.maxFds
  limit : t.maxFds <= nrOpenMax
  slots : t.slots = t.maxFds
  fit : BitsFit t.maxFds t.bits.shape
  whole : t.maxFds % 32 = 0
  inside : forall fd, t.fd fd ≠ none -> fd < t.maxFds ∧ fd < t.bits.size
  agree : forall fd, fd < t.maxFds ->
    (t.bits.isOpen fd = true <-> t.fd fd ≠ none)

theorem FilesOk.change (h : FilesOk t) (slot : Option File)
    (hfd : slot ≠ none -> fd < t.maxFds ∧ fd < t.bits.size)
    (hshape : b.shape = t.bits.shape) (hopen : forall i, b.isOpen i =
      if i = fd then slot.isSome else t.bits.isOpen i) (nextFd : Int) :
    FilesOk { t with
      fd := update t.fd fd slot
      bits := b
      nextFd := nextFd } := by
  refine ⟨h.large, h.limit, h.slots, ?_, h.whole, ?_, ?_⟩
  · rw [hshape]
    exact h.fit
  · intro i hi
    show i < t.maxFds ∧ i < b.size
    rw [Bitmaps.size_eq hshape]
    by_cases heq : i = fd
    · rw [heq] at hi ⊢
      have hself : update t.fd fd slot fd = slot :=
        update_self ..
      exact hfd (fun hnone => hi (hself.trans hnone))
    · have hother : update t.fd fd slot i = t.fd i :=
        update_of_ne heq _ _
      exact h.inside i (fun hnone => hi (hother.trans hnone))
  · intro i hi
    show b.isOpen i = true <-> update t.fd fd slot i ≠ none
    rw [hopen]
    split
    case isTrue heq =>
      rw [heq, update_self]
      exact Option.isSome_iff_ne_none
    case isFalse heq =>
      rw [update_of_ne heq]
      exact h.agree i hi

theorem exists_markOpen (h : fd < t.bits.size) (cloexec : Bool) :
    exists b nextFd,
      markOpen t fd cloexec = some { t with bits := b, nextFd := nextFd } ∧
      b.shape = t.bits.shape ∧
      forall i, b.isOpen i = if i = fd then true else t.bits.isOpen i := by
  rcases exists_changeOpen h test_set with ⟨b, hb, hshape, hopen⟩
  have hsize : fd < b.size := by
    rw [Bitmaps.size_eq hshape]
    exact h
  rcases exists_setCloseOnExec hsize cloexec with ⟨b', hb', hshape', hsame⟩
  refine ⟨b', if (fd : Int) >= t.nextFd then (fd : Int) + 1 else t.nextFd, ?_,
    hshape'.trans hshape, ?_⟩
  · unfold markOpen
    simp only [hb, hb', Option.map_some]
  · intro i
    rw [hsame, hopen]

theorem FilesOk.freeFd (h : FilesOk t) {fd : Int}
    (hfd : 0 <= fd -> fd < t.maxFds -> fd < t.bits.size) :
    exists t' closed, freeFd t fd = some (t', closed) ∧ FilesOk t' ∧
      t'.maxFds = t.maxFds ∧ t'.bits.shape = t.bits.shape := by
  unfold FileTable.freeFd
  by_cases hout : fd < 0 ∨ fd >= t.maxFds
  · rw [if_pos hout]
    exact ⟨t, [], rfl, h, rfl, rfl⟩
  · have hlt : fd.toNat < t.bits.size := by omega
    rcases exists_changeOpen hlt test_clear with ⟨b, hb, hshape, hopen⟩
    have hsize : fd.toNat < b.size := by
      rw [Bitmaps.size_eq hshape]
      exact hlt
    rcases exists_changeClose hsize test_clear with ⟨b', hb', hshape', hsame⟩
    have hslots := h.slots
    rw [if_neg hout, if_pos (by omega)]
    simp only [hb, hb', Option.map_some]
    refine ⟨_, _, rfl, ?_, rfl, hshape'.trans hshape⟩
    apply h.change none (fun hne => absurd rfl hne) (hshape'.trans hshape)
    intro i
    rw [hsame, hopen]
    rfl

/-!
## Growing
-/

theorem exists_nextPow {nr : Int} (hnr : nr <= 2 ^ 30) (rounds k : Nat)
    (hrounds : k + rounds = 31) (hpos : rounds ≠ 0) :
    exists j, nextPow rounds (2 ^ k) nr = some (2 ^ j) ∧ nr <= 2 ^ j := by
  induction rounds generalizing k with
  | zero => exact absurd rfl hpos
  | succ rounds ih =>
    unfold nextPow
    by_cases hlt : ((2 ^ k : Nat) : Int) < nr
    · have hk : k < 30 := by
        by_contra hge
        have hpow : 2 ^ 30 <= 2 ^ k :=
          Nat.pow_le_pow_right (by decide) (Nat.le_of_not_lt hge)
        omega
      rw [if_pos hlt, ← Nat.pow_succ']
      exact ih (k + 1) (by omega) (by omega)
    · rw [if_neg hlt]
      refine ⟨k, rfl, ?_⟩
      push_cast at hlt
      omega

theorem whole_pow {j : Nat} (h : 64 < 2 ^ j) : 2 ^ j % 32 = 0 := by
  have hj : 5 <= j := by
    by_contra hlt
    have hpow : 2 ^ j <= 2 ^ 5 :=
      Nat.pow_le_pow_right (by decide) (by omega)
    omega
  exact Nat.mod_eq_zero_of_dvd (Nat.pow_dvd_pow 2 hj)

theorem test_copyWords (w : Words) (n i : Nat) :
    test (copyWords w n) i = if i / 32 < n then test w i else false := by
  unfold test copyWords
  split <;> simp

theorem FilesOk.reaches (h : FilesOk t) :
    t.bits.Reaches ((t.maxFds + 31) / 32) := by
  have hfit := h.fit
  cases hbits : t.bits with
  | inline word =>
    rw [hbits] at hfit
    have hmax : t.maxFds = 64 := hfit
    rw [hmax]
    show (64 + 31) / 32 < 49
    decide
  | grown words c o =>
    rw [hbits] at hfit
    have hmax : 32 * words = t.maxFds := hfit
    show (t.maxFds + 31) / 32 <= words
    omega

theorem FilesOk.grow (h : FilesOk t) {nfds : Nat} (hle : t.maxFds <= nfds)
    (hlimit : nfds <= nrOpenMax) (hwhole : nfds % 32 = 0) :
    exists t', grow t nfds = some t' ∧ FilesOk t' ∧ t'.fd = t.fd ∧
      t'.maxFds = nfds ∧ t'.bits.size = nfds := by
  have hfd : (fun i => if i < t.maxFds then t.fd i else none) = t.fd := by
    funext i
    by_cases hi : i < t.maxFds
    · exact if_pos hi
    · rw [if_neg hi]
      by_contra hne
      exact hi (h.inside i (Ne.symm hne)).left
  unfold FileTable.grow
  rw [if_pos ⟨hle, Nat.le_of_eq h.slots.symm, h.reaches⟩, hfd]
  have hsize : 32 * ((nfds + 31) / 32) = nfds := by omega
  refine ⟨_, rfl, ⟨Nat.le_trans h.large hle, hlimit, rfl, hsize, hwhole, ?_, ?_⟩,
    rfl, rfl, hsize⟩
  · intro i hi
    have hlt := (h.inside i hi).left
    show i < nfds ∧ i < 32 * ((nfds + 31) / 32)
    omega
  · intro i _
    show test (copyWords t.bits.openWords ((t.maxFds + 31) / 32)) i = true <->
      t.fd i ≠ none
    have hmax := h.whole
    rw [test_copyWords]
    by_cases hi : i < t.maxFds
    · rw [if_pos (by omega)]
      exact h.agree i hi
    · rw [if_neg (by omega)]
      constructor
      · intro hfalse
        cases hfalse
      · intro hne
        exact absurd (h.inside i hne).left hi

structure Expanded (t : Files) (nr ret : Int) (t' : Files) : Prop where
  ok : FilesOk t'
  fd : t'.fd = t.fd
  failed : ret < 0 -> t' = t
  grown : ¬ ret < 0 -> t'.maxFds = t'.bits.size
  enough : ¬ ret < 0 -> nr <= nrOpenMax -> nr <= t'.maxFds

theorem FilesOk.expandFiles (h : FilesOk t) (nr : Int) (hpos : 0 <= nr)
    (hnr : nr <= 2 ^ 30) (memory : Bool) :
    exists ret t', expandFiles t nr memory = some (ret, t') ∧
      Expanded t nr ret t' := by
  have hfailed : Expanded t nr (-1) t :=
    ⟨h, rfl, fun _ => rfl, fun hret => absurd (by decide) hret,
      fun hret => absurd (by decide) hret⟩
  unfold FileTable.expandFiles
  by_cases hle : asUnsigned nr <= t.maxFds
  · rw [if_pos hle]
    exact ⟨-1, t, rfl, hfailed⟩
  rw [if_neg hle]
  have hnat : (asUnsigned nr : Int) = nr := by
    unfold asUnsigned
    omega
  obtain ⟨j, hpow, hbig⟩ : exists j, nextPow 31 1 nr = some (2 ^ j) ∧
      nr <= 2 ^ j := exists_nextPow hnr 31 0 rfl (by decide)
  rw [hpow]
  cases memory with
  | false => exact ⟨-1, t, rfl, hfailed⟩
  | true =>
    have hbigNat : asUnsigned nr <= 2 ^ j := by
      rw [← hnat] at hbig
      exact_mod_cast hbig
    have hlarge := h.large
    have hlimit := h.limit
    unfold nrOpenDefault at hlarge
    have hwhole := whole_pow (show 64 < 2 ^ j by omega)
    obtain ⟨nfds, hnfds⟩ : exists n,
        n = if 2 ^ j > nrOpenMax then nrOpenMax else 2 ^ j := ⟨_, rfl⟩
    have hgrow : t.maxFds <= nfds ∧ nfds <= nrOpenMax ∧ nfds % 32 = 0 ∧
        (nr <= nrOpenMax -> nr <= nfds) := by
      unfold nrOpenMax at hnfds hlimit ⊢
      rw [hnfds]
      split <;> omega
    rcases hgrow with ⟨hle', hlimit', hwhole', henough⟩
    rcases h.grow hle' hlimit' hwhole' with ⟨t', ht', hok, hfd, hmax, hsize⟩
    simp only [if_true, ← hnfds, ht', Option.map_some]
    refine ⟨0, t', rfl, ⟨hok, hfd, fun hret => absurd hret (by decide), ?_, ?_⟩⟩
    · intro _
      rw [hmax, hsize]
    · intro _ hsmall
      rw [hmax]
      exact henough hsmall

end FileTable
end Horizon
