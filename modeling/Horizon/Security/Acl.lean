import Horizon.Security.Modules
import Horizon.Types
import Mathlib.Data.List.Pairwise

/-!
# Access control lists

The lists of `security/security.c`, which are looked through to the end, and
those of the older `security.c`, where the first entry that matches decides.
An entry takes memory, so that the number of entries is a number of 32 bits.
-/

namespace Horizon
namespace Access

open Function List Security Errno

structure Entry where
  tag : BitVec 32
  id : BitVec 32
  perm : BitVec 32
deriving DecidableEq

structure Acl where
  count : Nat
  entries : List Entry

/-- What an entry can be for a caller. -/
inductive Kind where
  | user
  | group
  | other
  | mask
deriving DecidableEq

def aclUser : BitVec 32 := 1

def aclGroup : BitVec 32 := 2

def aclOther : BitVec 32 := 3

def aclMask : BitVec 32 := 4

def IsFor (uid gid : BitVec 32) : Kind -> Entry -> Prop
  | .user, e => e.tag = aclUser ∧ e.id = uid
  | .group, e => e.tag = aclGroup ∧ e.id = gid
  | .other, e => e.tag = aclOther
  | .mask, e => e.tag = aclMask

instance (uid gid : BitVec 32) (k : Kind) (e : Entry) :
    Decidable (IsFor uid gid k e) :=
  match k with
  | .user => inferInstanceAs (Decidable (_ ∧ _))
  | .group => inferInstanceAs (Decidable (_ ∧ _))
  | .other => inferInstanceAs (Decidable (_ = _))
  | .mask => inferInstanceAs (Decidable (_ = _))

/-!
## The calls
-/

/-- The removal of both files, which report a missing entry differently. -/
def removeEntry (missing : Int) (acl : Acl) (tag id : BitVec 32) : Int × Acl :=
  if acl.entries.any fun e => e.tag = tag ∧ e.id = id then
    (0, {
      count := acl.count - 1
      entries := acl.entries.eraseP fun e => e.tag = tag ∧ e.id = id })
  else (missing, acl)

/-- `mem` is whether `kmalloc` finds memory. -/
def securityAclAddEntry (acl : Acl) (mem : Bool) (e : Entry) : Int × Acl :=
  if mem then (0, ⟨acl.count + 1, acl.entries ++ [e]⟩) else (-1, acl)

def securityAclRemoveEntry : Acl -> BitVec 32 -> BitVec 32 -> Int × Acl :=
  removeEntry (-1)

/-- One round of the loop over the entries; `found` are its four
pointers. -/
def look (c : Context) (found : Kind -> Option Entry) (e : Entry) :
    Kind -> Option Entry :=
  if IsFor c.euid c.egid .user e then update found .user (some e)
  else if IsFor c.euid c.egid .group e then
    update found .group (some e)
  else if IsFor c.euid c.egid .other e then
    update found .other (some e)
  else if IsFor c.euid c.egid .mask e then update found .mask (some e)
  else found

def answer (refused : Int) (perm mask : BitVec 32) : Int :=
  if perm &&& mask = mask then 0 else refused

def masked (e : Entry) (m : Option Entry) (mask : BitVec 32) : Int :=
  match m with
  | some m => answer (-1) (e.perm &&& m.perm) mask
  | none => answer (-1) e.perm mask

def securityAclCheck (acl : Acl) (c : Context) (mask : BitVec 32) : Int :=
  if c.euid = 0 then 0
  else
    let found := acl.entries.foldl (look c) fun _ => none
    match found .user, found .group, found .other with
    | some e, _, _ => masked e (found .mask) mask
    | none, some e, _ => masked e (found .mask) mask
    | none, none, some e => answer (-1) e.perm mask
    | none, none, none => -1

namespace Old

def securityAclAddEntry (acl : Acl) (mem : Bool) (e : Entry) : Int × Acl :=
  if mem then (0, ⟨acl.count + 1, e :: acl.entries⟩) else (-enomem, acl)

def securityAclRemoveEntry : Acl -> BitVec 32 -> BitVec 32 -> Int × Acl :=
  removeEntry (-enoent)

/-- The entries at which the loop stops. -/
def Matches (c : Context) (e : Entry) : Prop :=
  IsFor c.uid c.gid .user e ∨ IsFor c.uid c.gid .group e ∨
    IsFor c.uid c.gid .other e

instance (c : Context) (e : Entry) : Decidable (Matches c e) :=
  inferInstanceAs (Decidable (_ ∨ _))

def securityAclCheck (acl : Acl) (c : Context) (mask : BitVec 32) : Int :=
  if c.uid = 0 then 0
  else
    match acl.entries.find? fun e => Matches c e with
    | some e => answer (-eacces) e.perm mask
    | none => answer (-eacces) 0 mask

end Old

inductive Op where
  | add (mem : Bool) (e : Entry)
  | remove (tag id : BitVec 32)

def apply (acl : Acl) : Op -> Acl
  | .add mem e => (securityAclAddEntry acl mem e).2
  | .remove tag id => (securityAclRemoveEntry acl tag id).2

def Old.apply (acl : Acl) : Op -> Acl
  | .add mem e => (Old.securityAclAddEntry acl mem e).2
  | .remove tag id => (Old.securityAclRemoveEntry acl tag id).2

def built (ops : List Op) : Acl := ops.foldl apply ⟨0, []⟩

def Old.built (ops : List Op) : Acl := ops.foldl Old.apply ⟨0, []⟩

/-!
## The decision
-/

def Covers (perm mask : BitVec 32) : Prop :=
  forall i, mask.getLsbD i = true -> perm.getLsbD i = true

def Passes (entries : List Entry) (mask : BitVec 32) (e : Entry) : Prop :=
  Covers e.perm mask ∧
    forall m, m ∈ entries -> m.tag = aclMask -> Covers m.perm mask

def Granted (entries : List Entry) (c : Context) (mask : BitVec 32) : Prop :=
  let IsUser := IsFor c.euid c.egid .user
  let IsGroup := IsFor c.euid c.egid .group
  (exists e, e ∈ entries ∧ IsUser e ∧ Passes entries mask e) ∨
  (forall e, e ∈ entries -> ¬ IsUser e) ∧
    ((exists e, e ∈ entries ∧ IsGroup e ∧ Passes entries mask e) ∨
    (forall e, e ∈ entries -> ¬ IsGroup e) ∧
      exists e, e ∈ entries ∧ e.tag = aclOther ∧ Covers e.perm mask)

/-- Two entries have different tags or ids, and are not both for others or both
mask entries. -/
def Apart (a b : Entry) : Prop :=
  a.tag = b.tag -> a.id ≠ b.id ∧ a.tag ≠ aclOther ∧ a.tag ≠ aclMask

def Distinct (entries : List Entry) : Prop := entries.Pairwise Apart

instance : Std.Symm Apart :=
  ⟨fun _ _ h heq => ⟨(h heq.symm).left.symm, heq ▸ (h heq.symm).right⟩⟩

variable {entries : List Entry} {acl : Acl} {c : Context} {k : Kind}
    {e : Entry} {uid gid : BitVec 32}

theorem and_eq_iff (perm mask : BitVec 32) :
    perm &&& mask = mask <-> Covers perm mask := by
  constructor
  · intro h i hi
    rw [<- h, BitVec.getLsbD_and, Bool.and_eq_true] at hi
    exact hi.left
  · intro h
    apply BitVec.eq_of_getLsbD_eq
    intro i _
    rw [BitVec.getLsbD_and]
    cases hi : mask.getLsbD i with
    | false => simp
    | true => simp [h i hi]

theorem answer_eq_zero {refused : Int} (h : refused ≠ 0)
    (perm mask : BitVec 32) :
    answer refused perm mask = 0 <-> Covers perm mask := by
  rw [<- and_eq_iff]
  unfold answer
  split <;> simp_all

theorem isFor_unique {k' : Kind} (h : IsFor uid gid k e)
    (h' : IsFor uid gid k' e) : k = k' := by
  cases k <;> cases k' <;> simp_all [IsFor, aclUser, aclGroup, aclOther, aclMask]

theorem look_apply (c : Context) (found : Kind -> Option Entry) (e : Entry)
    (k : Kind) : look c found e k =
      if IsFor c.euid c.egid k e then some e else found k := by
  unfold look
  split_ifs <;> cases k <;> grind [update_apply, isFor_unique]

theorem foldl_look (c : Context) (entries : List Entry)
    (found : Kind -> Option Entry) (k : Kind) :
    (exists e, e ∈ entries ∧ IsFor c.euid c.egid k e ∧
      entries.foldl (look c) found k = some e) ∨
    (forall e, e ∈ entries -> ¬ IsFor c.euid c.egid k e) ∧
      entries.foldl (look c) found k = found k := by
  induction entries generalizing found with
  | nil => exact Or.inr ⟨by simp, rfl⟩
  | cons e entries ih =>
    rw [foldl_cons]
    rcases ih (look c found e) with ⟨e', he', hfor, heq⟩ | ⟨hnone, heq⟩
    · exact Or.inl ⟨e', mem_cons_of_mem e he', hfor, heq⟩
    · rw [heq, look_apply]
      by_cases hfor : IsFor c.euid c.egid k e
      · exact Or.inl ⟨e, mem_cons_self, hfor, if_pos hfor⟩
      · refine Or.inr ⟨?_, if_neg hfor⟩
        rintro e' (_ | ⟨_, he'⟩)
        · exact hfor
        · exact hnone e' he'

theorem Distinct.eq {a b : Entry} (h : Distinct entries) (ha : a ∈ entries)
    (hb : b ∈ entries) (hfor : IsFor uid gid k a) (hfor' : IsFor uid gid k b) :
    a = b := by
  by_contra hne
  have hapart : Apart a b := h.forall ha hb hne
  cases k <;> simp_all [IsFor, Apart]

theorem Distinct.exists_iff (h : Distinct entries) (he : e ∈ entries)
    (hfor : IsFor uid gid k e) (Q : Entry -> Prop) :
    (exists e', e' ∈ entries ∧ IsFor uid gid k e' ∧ Q e') <-> Q e := by
  constructor
  · rintro ⟨e', he', hfor', hq⟩
    rw [h.eq he he' hfor hfor']
    exact hq
  · intro hq
    exact ⟨e, he, hfor, hq⟩

theorem not_exists_isFor (hnone : forall e, e ∈ entries -> ¬ IsFor uid gid k e)
    (Q : Entry -> Prop) :
    ¬ exists e, e ∈ entries ∧ IsFor uid gid k e ∧ Q e := by
  rintro ⟨e, he, hfor, _⟩
  exact hnone e he hfor

theorem masked_eq_zero (h : Distinct acl.entries) (c : Context) (e : Entry)
    (mask : BitVec 32) :
    masked e (acl.entries.foldl (look c) (fun _ => none) .mask) mask = 0 <->
      Passes acl.entries mask e := by
  unfold Passes
  rcases foldl_look c acl.entries (fun _ => none) .mask with
    ⟨m, hm, hfor, heq⟩ | ⟨hnone, heq⟩
  · have hboth : Covers (e.perm &&& m.perm) mask <->
        Covers e.perm mask ∧ Covers m.perm mask := by
      simp only [Covers, BitVec.getLsbD_and, Bool.and_eq_true, imp_and,
        forall_and]
    have hall : (forall m, m ∈ acl.entries -> m.tag = aclMask ->
        Covers m.perm mask) <-> Covers m.perm mask := by
      refine ⟨fun hall => hall m hm hfor, ?_⟩
      intro hc m' hm' hfor'
      exact h.eq hm hm' hfor hfor' ▸ hc
    simp only [heq, masked, answer_eq_zero (by decide : (-1 : Int) ≠ 0),
      hboth, hall]
  · have hall : forall m, m ∈ acl.entries -> m.tag = aclMask ->
        Covers m.perm mask := fun m hm hfor => absurd hfor (hnone m hm)
    simp only [heq, masked, answer_eq_zero (by decide : (-1 : Int) ≠ 0),
      and_iff_left hall]

theorem securityAclCheck_iff (h : Distinct acl.entries) (hroot : c.euid ≠ 0)
    (mask : BitVec 32) :
    securityAclCheck acl c mask = 0 <-> Granted acl.entries c mask := by
  have hlook := foldl_look c acl.entries fun _ => none
  have hmask := fun e => masked_eq_zero h c e mask
  unfold Granted securityAclCheck
  rw [if_neg hroot]
  rcases hlook .user with ⟨u, hu, hfor, heq⟩ | ⟨hnone, heq⟩
  · have hsome : ¬ forall e, e ∈ acl.entries ->
        ¬ IsFor c.euid c.egid .user e := fun hn => hn u hu hfor
    simp only [heq, hmask, h.exists_iff hu hfor, hsome, false_and, or_false]
  rw [or_iff_right (not_exists_isFor hnone _), and_iff_right hnone]
  rcases hlook .group with ⟨g, hg, hfor, heq'⟩ | ⟨hnone', heq'⟩
  · have hsome : ¬ forall e, e ∈ acl.entries ->
        ¬ IsFor c.euid c.egid .group e := fun hn => hn g hg hfor
    simp only [heq, heq', hmask, h.exists_iff hg hfor, hsome, false_and,
      or_false]
  rw [or_iff_right (not_exists_isFor hnone' _), and_iff_right hnone']
  rcases hlook .other with ⟨o, ho, hfor, heq''⟩ | ⟨hnone'', heq''⟩
  · simp only [heq, heq', heq'', answer_eq_zero (by decide : (-1 : Int) ≠ 0)]
    exact (h.exists_iff ho hfor fun e => Covers e.perm mask).symm
  · simp only [heq, heq', heq'']
    exact iff_of_false (by decide) (not_exists_isFor hnone'' _)

theorem securityAclCheck_cases (acl : Acl) (c : Context) (mask : BitVec 32) :
    securityAclCheck acl c mask = 0 ∨ securityAclCheck acl c mask = -1 := by
  simp only [securityAclCheck, masked, answer]
  split_ifs <;> grind

theorem count_removeEntry (h : acl.count = acl.entries.length) (missing : Int)
    (tag id : BitVec 32) :
    (removeEntry missing acl tag id).2.count =
      (removeEntry missing acl tag id).2.entries.length := by
  unfold removeEntry
  split
  case isTrue hany =>
    rcases any_eq_true.mp hany with ⟨e, he, htest⟩
    have hlength := length_eraseP_of_mem
      (p := fun e => decide (e.tag = tag ∧ e.id = id)) he htest
    simp only [hlength, h]
  case isFalse => exact h

theorem count_built (ops : List Op) :
    (built ops).count = (built ops).entries.length := by
  have hstep : forall (ops : List Op) (acl : Acl),
      acl.count = acl.entries.length ->
        (ops.foldl apply acl).count = (ops.foldl apply acl).entries.length := by
    intro ops
    induction ops with
    | nil => exact fun acl h => h
    | cons op ops ih =>
      intro acl h
      apply ih
      cases op with
      | add mem e =>
        simp only [apply, securityAclAddEntry]
        split
        · simp [h]
        · exact h
      | remove tag id => exact count_removeEntry h (-1) tag id
  exact hstep ops ⟨0, []⟩ rfl

/--
For a caller who is not root the check succeeds exactly when the entry for the
user, or else that for the group, or else that for others gives what is asked
for; the order of the entries does not matter, and they are counted.
-/
theorem acl_decision (ops : List Op) (h : Distinct (built ops).entries)
    (c : Context) (hroot : c.euid ≠ 0) (mask : BitVec 32) :
    (securityAclCheck (built ops) c mask = 0 <->
      Granted (built ops).entries c mask) ∧
    (built ops).count = (built ops).entries.length ∧
    forall ops', (built ops').entries.Perm (built ops).entries ->
      securityAclCheck (built ops') c mask =
        securityAclCheck (built ops) c mask := by
  have hiff := securityAclCheck_iff h hroot mask
  refine ⟨hiff, count_built ops, ?_⟩
  intro ops' hperm
  have hdistinct : Distinct (built ops').entries :=
    (hperm.pairwise_iff fun h => Std.Symm.symm _ _ h).mpr h
  have hsame : Granted (built ops').entries c mask <->
      Granted (built ops).entries c mask := by
    simp only [Granted, Passes, hperm.mem_iff]
  have hiff' := (securityAclCheck_iff hdistinct hroot mask).trans
    (hsame.trans hiff.symm)
  rcases securityAclCheck_cases (built ops) c mask with h0 | h1
  · rw [h0]
    exact hiff'.mpr h0
  · rcases securityAclCheck_cases (built ops') c mask with h0' | h1'
    · rw [h0']
      exact (hiff'.mp h0').symm
    · rw [h1, h1']

def sampleOps : List Op :=
  [.add true ⟨aclGroup, 5, 4⟩, .add true ⟨aclMask, 0, 6⟩,
   .add true ⟨aclUser, 7, 3⟩, .remove aclGroup 5, .add true ⟨aclGroup, 5, 4⟩]

def sampleContext : Context :=
  { securityAllocContext with uid := 7, euid := 7, gid := 5, egid := 5 }

theorem acl_decision_sample :
    Granted (built sampleOps).entries sampleContext 2 ∧
    ¬ Granted (built sampleOps).entries sampleContext 4 := by
  have hd : Distinct (built sampleOps).entries := by
    show List.Pairwise (fun a b : Entry => a.tag = b.tag -> _) _
    decide
  have hcheck := fun mask => (acl_decision sampleOps hd sampleContext
    (by decide) mask).left
  exact ⟨(hcheck 2).mp (by decide), fun h =>
    absurd ((hcheck 4).mpr h) (by decide)⟩

/-!
## The older lists
-/

namespace Old

/-- A user entry decides, and a group entry if there is no user entry. -/
def Follows (acl : Acl) (c : Context) (mask : BitVec 32) : Prop :=
  forall e, e ∈ acl.entries ->
    IsFor c.uid c.gid .user e ∨ IsFor c.uid c.gid .group e ∧
      (forall e', e' ∈ acl.entries -> ¬ IsFor c.uid c.gid .user e') ->
    (securityAclCheck acl c mask = 0 <-> Covers e.perm mask)

def Agree (entries : List Entry) (c : Context) (mask : BitVec 32) : Prop :=
  forall e e', e ∈ entries -> e' ∈ entries -> Matches c e -> Matches c e' ->
    (Covers e.perm mask <-> Covers e'.perm mask)

variable {mask : BitVec 32}

theorem check_eq (hroot : c.uid ≠ 0) (he : e ∈ acl.entries)
    (hmatch : Matches c e) (h : Agree acl.entries c mask) :
    securityAclCheck acl c mask = answer (-eacces) e.perm mask := by
  unfold securityAclCheck
  rw [if_neg hroot]
  cases hfind : acl.entries.find? fun e => Matches c e with
  | none => exact absurd hmatch (by simpa using List.find?_eq_none.mp hfind e he)
  | some e' =>
    have hmatch' : Matches c e' := by simpa using List.find?_some hfind
    have hsame := h e' e (mem_of_find?_eq_some hfind) he hmatch' hmatch
    rw [<- and_eq_iff, <- and_eq_iff] at hsame
    simp only [answer, hsame]

theorem check_of_none (hroot : c.uid ≠ 0)
    (h : forall e, e ∈ acl.entries -> ¬ Matches c e) :
    securityAclCheck acl c mask = answer (-eacces) 0 mask := by
  have hfind : (acl.entries.find? fun e => Matches c e) = none := by
    simpa using h
  unfold securityAclCheck
  rw [if_neg hroot, hfind]

theorem built_adds (l : List Entry) :
    (built (l.reverse.map (.add true))).entries = l := by
  induction l with
  | nil => rfl
  | cons e l ih =>
    unfold built at ih ⊢
    rw [reverse_cons, map_append, foldl_append]
    exact congrArg (e :: ·) ih

theorem check_first (hroot : c.uid ≠ 0) (hmatch : Matches c e)
    (l : List Entry) :
    securityAclCheck (built ((e :: l).reverse.map (.add true))) c mask =
      answer (-eacces) e.perm mask := by
  unfold securityAclCheck
  rw [if_neg hroot, built_adds, List.find?_cons_of_pos (by simpa using hmatch)]

/--
The order in which the entries were added does not matter, and users come before
groups, exactly when all entries that match the caller answer alike.
-/
theorem old_acl_order_free_iff (ops : List Op) (c : Context)
    (mask : BitVec 32) :
    (forall ops', (built ops').entries.Perm (built ops).entries ->
      securityAclCheck (built ops') c mask =
        securityAclCheck (built ops) c mask ∧
      (c.uid ≠ 0 -> Follows (built ops') c mask)) <->
    (c.uid ≠ 0 -> Agree (built ops).entries c mask) := by
  constructor
  · intro h hroot e e' he he' hmatch hmatch'
    -- each of the two entries may be the one that was added last
    have hfirst : forall e, e ∈ (built ops).entries -> Matches c e ->
        securityAclCheck (built ops) c mask = answer (-eacces) e.perm mask := by
      intro e he hmatch
      rw [<- check_first hroot hmatch ((built ops).entries.erase e)]
      refine (h _ ?_).left.symm
      rw [built_adds]
      exact (perm_cons_erase he).symm
    have hzero := answer_eq_zero (by decide : -eacces ≠ 0)
    rw [<- hzero, <- hfirst e he hmatch, hfirst e' he' hmatch', hzero]
  · intro h ops' hperm
    by_cases hroot : c.uid = 0
    · exact ⟨by simp [securityAclCheck, hroot], fun hne => absurd hroot hne⟩
    have hagree := h hroot
    have hagree' : Agree (built ops').entries c mask := by
      intro e e' he he'
      exact hagree e e' (hperm.mem_iff.mp he) (hperm.mem_iff.mp he')
    constructor
    · by_cases hex : exists e, e ∈ (built ops).entries ∧ Matches c e
      · rcases hex with ⟨e, he, hmatch⟩
        rw [check_eq hroot he hmatch hagree,
          check_eq hroot (hperm.mem_iff.mpr he) hmatch hagree']
      · have hnone : forall e, e ∈ (built ops).entries -> ¬ Matches c e :=
          fun e he hmatch => hex ⟨e, he, hmatch⟩
        rw [check_of_none hroot hnone,
          check_of_none hroot fun e he => hnone e (hperm.mem_iff.mp he)]
    · intro _ e he hfor
      rw [check_eq hroot he (hfor.imp_right fun hg => Or.inl hg.left) hagree',
        answer_eq_zero (by decide)]

/-- The user may write, and is refused because the group was added last. -/
theorem old_acl_group_hides_user :
    let user : Entry := ⟨aclUser, 7, 2⟩
    let group : Entry := ⟨aclGroup, 5, 4⟩
    let first := built [.add true group, .add true user]
    let second := built [.add true user, .add true group]
    first.entries.Perm second.entries ∧ second.entries.Nodup ∧
    securityAclCheck first sampleContext 2 = 0 ∧
    securityAclCheck second sampleContext 2 = -eacces := by
  exact ⟨List.Perm.swap _ _ _, by decide, by decide, by decide⟩

end Old
end Access
end Horizon
