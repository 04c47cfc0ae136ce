import Horizon.Lib.LinkedList
import Horizon.Lib.Transition
import Horizon.Types

/-!
# The device registry

`device.c`.  The lists of the buses, classes and drivers are taken as set up, and
the operations of a device as leaving the registry alone.
-/

namespace Horizon
namespace Devices

open Function List Errno LinkedList Transition

inductive Head where
  | deviceList
  | bus (b : Nat)
  | cls (c : Nat)
  | driver (r : Nat)
deriving DecidableEq

inductive Kind where
  | siblings
  | busList
  | classList
  | driverList
deriving DecidableEq

inductive Node where
  | head (h : Head)
  | entry (k : Kind) (d : Nat)
  | children (d : Nat)
deriving DecidableEq

structure Device where
  name : List UInt8
  parent : Option Nat
  bus : Option Nat
  cls : Option Nat
  driver : Option Nat
deriving DecidableEq

def Device.target (dev : Device) : Kind -> Option Head
  | .siblings => some .deviceList
  | .busList => dev.bus.map .bus
  | .classList => dev.cls.map .cls
  | .driverList => dev.driver.map .driver

/-- `foreign` is what stands in place of a name where a node is taken for the
`siblings` of a device and is not. -/
structure State where
  links : Links Node
  devices : Nat -> Device
  foreign : Node -> List UInt8
  registered : List Nat

def nameAt (s : State) : Node -> List UInt8
  | .entry .siblings d => (s.devices d).name
  | n => s.foreign n

def findLoop (s : State) (name : List UInt8) :
    Nat -> Option Node -> Option (Option Node)
  | fuel + 1, some pos =>
      if pos = .head .deviceList then some none
      else if nameAt s pos = name then some (some pos)
      else findLoop s name fuel (s.links pos).next
  | _, _ => none

def deviceFindByName (s : State) (fuel : Nat) :
    Option (List UInt8) -> Option (Option Node)
  | none => some none
  | some name => findLoop s name fuel (s.links (.head .deviceList)).next

def onLists (op : Links Node -> Node -> Head -> Option (Links Node)) (d : Nat)
    (dev : Device) : List Kind -> Links Node -> Option (Links Node)
  | [], L => some L
  | k :: ks, L =>
      match dev.target k with
      | none => onLists op d dev ks L
      | some h => (op L (.entry k d) h).bind (onLists op d dev ks)

def addAll : Nat -> Device -> List Kind -> Links Node -> Option (Links Node) :=
  onLists fun L n h => listAdd L n (.head h)

def delAll : Nat -> Device -> List Kind -> Links Node -> Option (Links Node) :=
  onLists fun L n _ => listDel L n

def listInits (L : Links Node) (d : Nat) : Links Node :=
  let L := listInit L (.entry .driverList d)
  let L := listInit L (.entry .busList d)
  let L := listInit L (.entry .classList d)
  let L := listInit L (.children d)
  listInit L (.entry .siblings d)

def deviceRegister (s : State) (fuel : Nat) (dev : Option Nat) :
    Option (Int × State) :=
  match dev with
  | none => some (-einval, s)
  | some d => do
      let dev := s.devices d
      let existing <- deviceFindByName s fuel (some dev.name)
      if existing ≠ none then return (-eexist, s)
      let L <- addAll d dev [.siblings] (listInits s.links d)
      let L <- match dev.parent with
        | none => some L
        | some p => listAdd L (.entry .siblings d) (.children p)
      let L <- addAll d dev [.busList, .classList, .driverList] L
      return (0, { s with links := L })

def deviceUnregister (s : State) (dev : Option Nat) : Option (Int × State) :=
  match dev with
  | none => some (-einval, s)
  | some d => do
      let dev := s.devices d
      let L <- delAll d dev [.siblings] s.links
      let L <- if dev.parent = none then some L
        else listDel L (.entry .siblings d)
      let L <- delAll d dev [.busList, .classList, .driverList] L
      return (0, { s with links := L })

inductive Step where
  | register (fuel d : Nat) (dev : Device)
  | unregister (d : Nat)

/-- The caller fills in a device before it is registered, and leaves it alone
as long as it is; only registered devices are unregistered. -/
def next (s : State) : Step -> Option State
  | .register fuel d dev =>
      if d ∈ s.registered ∧ s.devices d ≠ dev then none
      else do
        let s := { s with devices := update s.devices d dev }
        let (r, s) <- deviceRegister s fuel (some d)
        if r = 0 then some { s with registered := d :: s.registered }
        else some s
  | .unregister d =>
      if d ∈ s.registered then do
        let (_, s) <- deviceUnregister s (some d)
        some { s with registered := s.registered.erase d }
      else none

structure Init (s : State) : Prop where
  registered : s.registered = []
  lists : forall h, Ring s.links (.head h) []

/-- A lookup returns, and finds a registered device with the name if there is
one; the list of children of a device is what it should be. -/
structure Kept (s : State) : Prop where
  found : forall name, exists fuel r,
    deviceFindByName s fuel (some name) = some r ∧
    (forall pos, r = some pos -> exists d, d ∈ s.registered ∧
      pos = .entry .siblings d ∧ (s.devices d).name = name) ∧
    (r = none -> forall d, d ∈ s.registered -> (s.devices d).name ≠ name)
  children : forall d, d ∈ s.registered -> exists kids : List Nat,
    Ring s.links (.children d) (kids.map (.entry .siblings)) ∧
      forall c, c ∈ kids <-> c ∈ s.registered ∧ (s.devices c).parent = some d

def Parentless (_ : State) : Step -> Prop
  | .register _ _ dev => dev.parent = none
  | .unregister _ => True

/-!
## Devices without a parent
-/

/-- The entries of devices that are on their lists, and the devices whose lists of
children are empty. -/
structure Linked (devices : Nat -> Device) (owners : List Nat)
    (placed : Kind -> Nat -> Prop) (L : Links Node) (xs : Head -> List Node) :
    Prop where
  rings : Rings L Node.head xs
  mem : forall n h, n ∈ xs h <-> exists k c, n = .entry k c ∧ placed k c ∧
    (devices c).target k = some h
  children : forall c, c ∈ owners -> Ring L (.children c) []

variable {L L' : Links Node} {xs : Head -> List Node} {s s' : State}
  {d : Nat} {dev : Device} {owners : List Nat}
  {devices : Nat -> Device} {placed placed' : Kind -> Nat -> Prop}
  {k : Kind} {j : Head} {registered : List Nat}

section

variable (h : Linked devices owners placed L xs)
include h

theorem Linked.congr
    (hsame : forall k c h, (devices c).target k = some h ->
      (placed k c <-> placed' k c)) : Linked devices owners placed' L xs := by
  refine ⟨h.rings, fun n j => ?_, h.children⟩
  rw [h.mem]
  constructor
  · rintro ⟨k, c, hn, hc, ht⟩
    exact ⟨k, c, hn, (hsame k c j ht).mp hc, ht⟩
  · rintro ⟨k, c, hn, hc, ht⟩
    exact ⟨k, c, hn, (hsame k c j ht).mpr hc, ht⟩

theorem Linked.not_children (c : Nat) (j : Head) : .children c ∉ xs j := by
  simp [h.mem]

theorem Linked.add (hnot : ¬ placed k d)
    (htarget : (devices d).target k = some j) :
    exists L', listAdd L (.entry k d) (.head j) = some L' ∧
      Linked devices owners (fun k' c => placed k' c ∨ k' = k ∧ c = d) L'
        (update xs j (.entry k d :: xs j)) := by
  have hnew : forall i, .entry k d ∉ xs i := by
    intro i hi
    rcases (h.mem _ i).mp hi with ⟨_, _, heq, hplaced, _⟩
    cases heq
    exact hnot hplaced
  rcases h.rings.listAdd (i := j) (by simp) hnew with ⟨L', hadd, hrings⟩
  have hfresh : .entry k d ∉ .head j :: xs j := by simp [hnew]
  rcases (h.rings.ring j).listAdd hfresh with ⟨_, hadd', _, hframe⟩
  cases hadd.symm.trans hadd'
  refine ⟨L', hadd, hrings, fun n i => ?_, fun c hc => ?_⟩
  · rw [mem_push, h.mem]
    grind
  · apply (h.children c hc).congr
    intro n hn
    rw [mem_singleton.mp hn, hframe _ (by simp [h.not_children])]

theorem Linked.del (hplaced : placed k d)
    (htarget : (devices d).target k = some j) :
    exists L', listDel L (.entry k d) = some L' ∧
      Linked devices owners (fun k' c => placed k' c ∧ ¬ (k' = k ∧ c = d)) L'
        (update xs j ((xs j).erase (.entry k d))) := by
  have hold := (h.mem _ j).mpr ⟨k, d, rfl, hplaced, htarget⟩
  rcases h.rings.listDel hold with ⟨L', hdel, hrings⟩
  rcases (h.rings.ring j).listDel hold with ⟨_, hdel', _, hframe⟩
  cases hdel.symm.trans hdel'
  refine ⟨L', hdel, hrings, fun n i => ?_, fun c hc => ?_⟩
  · rw [h.rings.mem_erase hold, h.mem]
    grind
  · apply (h.children c hc).congr
    intro n hn
    rw [mem_singleton.mp hn, hframe _ (by simp [h.not_children])]

end

theorem onLists_spec {op : Links Node -> Node -> Head -> Option (Links Node)}
    (inv : List Kind -> Links Node -> Prop)
    (hskip : forall k ks L, inv (k :: ks) L -> dev.target k = none -> inv ks L)
    (hstep : forall k ks L j, inv (k :: ks) L -> dev.target k = some j ->
      exists L', op L (.entry k d) j = some L' ∧ inv ks L')
    {ks rest : List Kind} (h : inv (ks ++ rest) L) :
    exists L', onLists op d dev ks L = some L' ∧ inv rest L' := by
  induction ks generalizing L with
  | nil => exact ⟨L, rfl, h⟩
  | cons k ks ih =>
    unfold onLists
    cases htarget : dev.target k with
    | none => exact ih (hskip k _ L h htarget)
    | some j =>
      rcases hstep k _ L j h htarget with ⟨L1, hop, h1⟩
      rcases ih h1 with ⟨L', hrest, h'⟩
      refine ⟨L', ?_, h'⟩
      simp only [hop, Option.bind_some, hrest]

/-- A device is on some of its lists, those that are registered on all. -/
def Partly (devices : Nat -> Device) (owners registered : List Nat) (d : Nat)
    (here : Kind -> Prop) (L : Links Node) : Prop :=
  exists xs, Linked devices owners
    (fun k c => if c = d then here k else c ∈ registered) L xs

theorem addAll_spec (ks rest : List Kind) (hks : (ks ++ rest).Nodup)
    (h : Partly devices owners registered d (· ∉ ks ++ rest) L) :
    exists L', addAll d (devices d) ks L = some L' ∧ rest.Nodup ∧
      Partly devices owners registered d (· ∉ rest) L' := by
  apply onLists_spec (fun ks L => ks.Nodup ∧
    Partly devices owners registered d (· ∉ ks) L) _ _ ⟨hks, h⟩
  · rintro k ks L ⟨hks, xs, h⟩ htarget
    refine ⟨hks.tail, xs, h.congr ?_⟩
    grind
  · rintro k ks L j ⟨hks, xs, h⟩ htarget
    rcases h.add (k := k) (by simp) htarget with ⟨L', hadd, h'⟩
    refine ⟨L', hadd, hks.tail, _, h'.congr ?_⟩
    grind

theorem delAll_spec (ks rest : List Kind) (hks : (ks ++ rest).Nodup)
    (h : Partly devices owners registered d (· ∈ ks ++ rest) L) :
    exists L', delAll d (devices d) ks L = some L' ∧ rest.Nodup ∧
      Partly devices owners registered d (· ∈ rest) L' := by
  apply onLists_spec (fun ks L => ks.Nodup ∧
    Partly devices owners registered d (· ∈ ks) L) _ _ ⟨hks, h⟩
  · rintro k ks L ⟨hks, xs, h⟩ htarget
    refine ⟨hks.tail, xs, h.congr ?_⟩
    grind
  · rintro k ks L j ⟨hks, xs, h⟩ htarget
    rcases h.del (k := k) (by simp) htarget with ⟨L', hdel, h'⟩
    refine ⟨L', hdel, hks.tail, _, h'.congr ?_⟩
    grind

theorem listInits_frame {n : Node} (hchildren : n ≠ .children d)
    (hentry : forall k, n ≠ .entry k d) : listInits L d n = L n := by
  unfold listInits
  rw [listInit_frame (hentry _), listInit_frame hchildren,
    listInit_frame (hentry _), listInit_frame (hentry _),
    listInit_frame (hentry _)]

theorem Linked.inits (h : Linked devices owners placed L xs)
    (hd : forall k, ¬ placed k d) :
    Linked devices (d :: owners) placed (listInits L d) xs := by
  refine ⟨⟨fun j => ?_, h.rings.headInj, h.rings.headFresh, h.rings.disjoint⟩,
    h.mem, fun c hc => ?_⟩
  · apply (h.rings.ring j).congr
    intro n hn
    rcases mem_cons.mp hn with rfl | hn
    · exact listInits_frame (by simp) (by simp)
    · rcases (h.mem n j).mp hn with ⟨k, c, rfl, hplaced, _⟩
      apply listInits_frame (by simp)
      intro k' heq
      cases heq
      exact hd k hplaced
  · by_cases hcd : c = d
    · subst hcd
      have hring := ring_listInit (listInit (listInit (listInit L
        (.entry .driverList c)) (.entry .busList c)) (.entry .classList c))
        (.children c)
      apply hring.congr
      intro n hn
      rw [mem_singleton.mp hn]
      exact listInit_frame (by simp)
    · apply (h.children c ((mem_cons.mp hc).resolve_left hcd)).congr
      intro n hn
      rw [mem_singleton.mp hn]
      exact listInits_frame (by simpa using hcd) (by simp)

/-- A walk that returns has gone up to the first device with the name. -/
theorem findLoop_segment (name : List UInt8) {a : Node} {ys : List Node}
    (h : Segment s.links a ys (.head .deviceList))
    (hys : .head .deviceList ∉ ys) :
    (forall fuel r, findLoop s name fuel (s.links a).next = some r ->
      r = ys.find? (nameAt s · = name)) ∧
    exists fuel, findLoop s name fuel (s.links a).next =
      some (ys.find? (nameAt s · = name)) := by
  induction ys generalizing a with
  | nil =>
    rw [h.left]
    refine ⟨fun fuel r hr => ?_, 1, by simp [findLoop]⟩
    cases fuel with
    | zero => cases hr
    | succ fuel => simpa [findLoop] using hr.symm
  | cons y ys ih =>
    have hy : y ≠ .head .deviceList := fun heq => hys (heq ▸ mem_cons_self)
    rcases ih h.right fun hmem => hys (mem_cons_of_mem _ hmem) with
      ⟨hone, fuel, hsome⟩
    rw [h.left.left]
    by_cases hname : nameAt s y = name
    · refine ⟨fun fuel r hr => ?_, 1, by simp [findLoop, hy, hname]⟩
      cases fuel with
      | zero => cases hr
      | succ fuel => simpa [findLoop, hy, hname] using hr.symm
    · refine ⟨fun fuel r hr => ?_, fuel + 1, by simp [findLoop, hy, hname, hsome]⟩
      cases fuel with
      | zero => cases hr
      | succ fuel =>
        simp only [findLoop, hy, if_false, hname] at hr
        simp [hone fuel r hr, hname]

structure Ok (s : State) : Prop where
  linked : exists xs, Linked s.devices s.registered
    (fun _ c => c ∈ s.registered) s.links xs
  parents : forall c, c ∈ s.registered -> (s.devices c).parent = none
  nodup : s.registered.Nodup

theorem Ok.find (h : Ok s) (name : List UInt8) :
    exists r, (exists fuel, deviceFindByName s fuel (some name) = some r) ∧
      (forall fuel r', deviceFindByName s fuel (some name) = some r' ->
        r' = r) ∧
      (forall pos, r = some pos -> exists d, d ∈ s.registered ∧
        pos = .entry .siblings d ∧ (s.devices d).name = name) ∧
      (r = none -> forall d, d ∈ s.registered -> (s.devices d).name ≠ name) := by
  rcases h.linked with ⟨xs, h⟩
  have hring := h.rings.ring .deviceList
  rcases findLoop_segment name hring.segment
    (nodup_cons.mp hring.nodup).left with ⟨hone, hsome⟩
  refine ⟨_, hsome, hone, ?_, ?_⟩
  · intro pos hpos
    have hmem := mem_of_find?_eq_some hpos
    have hname := List.find?_some hpos
    rcases (h.mem _ _).mp hmem with ⟨k, c, rfl, hc, htarget⟩
    cases k <;> simp [Device.target] at htarget
    exact ⟨c, hc, rfl, of_decide_eq_true hname⟩
  · intro hnone d hd heq
    have hmem := (h.mem _ _).mpr ⟨.siblings, d, rfl, hd, rfl⟩
    exact List.find?_eq_none.mp hnone _ hmem (decide_eq_true heq)

theorem Ok.kept (h : Ok s) : Kept s where
  found := by
    intro name
    rcases h.find name with ⟨r, ⟨fuel, hfind⟩, _, hr⟩
    exact ⟨fuel, r, hfind, hr⟩
  children := by
    intro d hd
    rcases h.linked with ⟨xs, hlinked⟩
    refine ⟨[], hlinked.children d hd, fun c => ?_⟩
    constructor
    · intro hc
      cases hc
    · rintro ⟨hc, hparent⟩
      rw [h.parents c hc] at hparent
      cases hparent

theorem Ok.fill (h : Ok s) (hd : d ∈ s.registered -> s.devices d = dev) :
    Ok { s with devices := update s.devices d dev } := by
  by_cases hmem : d ∈ s.registered
  · rw [<- hd hmem, update_eq_self]
    exact h
  · have hsame : forall c, c ∈ s.registered ->
        update s.devices d dev c = s.devices c := by
      intro c hc
      exact update_of_ne (fun heq : c = d => hmem (heq ▸ hc)) _ _
    rcases h.linked with ⟨xs, hlinked⟩
    refine ⟨⟨xs, hlinked.rings, fun n j => ?_, hlinked.children⟩, ?_, h.nodup⟩
    · rw [hlinked.mem]
      grind
    · intro c hc
      simp only [hsame c hc]
      exact h.parents c hc

theorem Ok.register (h : Ok s) (hparent : (s.devices d).parent = none)
    {fuel : Nat} {r : Int}
    (hreg : deviceRegister s fuel (some d) = some (r, s')) :
    (r ≠ 0 ∧ s' = s) ∨
      (r = 0 ∧ Ok { s' with registered := d :: s'.registered }) := by
  rcases h.find (s.devices d).name with ⟨found, _, hone, _, hnone⟩
  simp only [deviceRegister, Option.bind_eq_bind] at hreg
  rcases Option.bind_eq_some_iff.mp hreg with ⟨existing, hfind, hreg⟩
  cases hone _ _ hfind
  cases hfound : found with
  | some pos =>
    rw [hfound] at hreg
    cases hreg
    exact Or.inl ⟨by decide, rfl⟩
  | none =>
    have hnot : d ∉ s.registered := fun hd => hnone hfound d hd rfl
    rcases h.linked with ⟨xs, hlinked⟩
    have hinits := hlinked.inits (d := d) (fun _ => hnot)
    have hpartly : Partly s.devices (d :: s.registered) s.registered d
        (· ∉ [.siblings] ++ [.busList, .classList, .driverList])
        (listInits s.links d) := by
      refine ⟨xs, hinits.congr fun k c j _ => ?_⟩
      cases k <;> grind
    rcases addAll_spec [.siblings] _ (by decide) hpartly with
      ⟨L1, hadd1, hks, hpartly⟩
    rcases addAll_spec [.busList, .classList, .driverList] [] hks hpartly with
      ⟨L2, hadd2, _, xs', hend⟩
    simp only [hfound, ne_eq, not_true, if_false, hadd1, hparent,
      Option.bind_some, hadd2] at hreg
    cases hreg
    refine Or.inr ⟨rfl, ⟨xs', hend.congr fun k c j _ => ?_⟩, ?_, ?_⟩
    · grind
    · intro c hc
      rcases mem_cons.mp hc with rfl | hc
      · exact hparent
      · exact h.parents c hc
    · exact nodup_cons.mpr ⟨hnot, h.nodup⟩

theorem Ok.unregister (h : Ok s) (hd : d ∈ s.registered) {r : Int}
    (hunreg : deviceUnregister s (some d) = some (r, s')) :
    Ok { s' with registered := s'.registered.erase d } := by
  rcases h.linked with ⟨xs, hlinked⟩
  have hpartly : Partly s.devices s.registered s.registered d
      (· ∈ [.siblings] ++ [.busList, .classList, .driverList]) s.links := by
    refine ⟨xs, hlinked.congr fun k c j _ => ?_⟩
    cases k <;> grind
  rcases delAll_spec [.siblings] _ (by decide) hpartly with
    ⟨L1, hdel1, hks, hpartly⟩
  rcases delAll_spec [.busList, .classList, .driverList] [] hks hpartly with
    ⟨L2, hdel2, _, xs', hend⟩
  simp only [deviceUnregister, h.parents d hd, if_true, hdel1, hdel2,
    Option.bind_eq_bind, Option.bind_some] at hunreg
  cases hunreg
  have hmem : forall c, c ∈ s.registered.erase d <-> c ≠ d ∧ c ∈ s.registered :=
    fun c => h.nodup.mem_erase_iff
  have herased : Linked s.devices s.registered
      (fun _ c => c ∈ s.registered.erase d) L2 xs' :=
    hend.congr fun k c j _ => by grind
  refine ⟨⟨xs', herased.rings, herased.mem, fun c hc => ?_⟩, ?_, h.nodup.erase d⟩
  · exact herased.children c (mem_of_mem_erase hc)
  · intro c hc
    exact h.parents c (mem_of_mem_erase hc)

theorem Ok.next {step : Step} (h : Ok s) (hok : Parentless s step)
    (hnext : next s step = some s') : Ok s' := by
  cases step with
  | register fuel d dev =>
    simp only [Devices.next] at hnext
    split at hnext
    · cases hnext
    · rename_i hkeep
      rcases Option.bind_eq_some_iff.mp hnext with ⟨⟨r, s1⟩, hreg, hnext⟩
      have hfill := h.fill fun hd => not_not.mp fun hne => hkeep ⟨hd, hne⟩
      have hparent : (update s.devices d dev d).parent = none := by
        rw [update_self]
        exact hok
      rcases hfill.register hparent hreg with ⟨hr, rfl⟩ | ⟨hr, hs⟩
      · simp only [hr, if_false] at hnext
        cases hnext
        exact hfill
      · simp only [hr, if_true] at hnext
        cases hnext
        exact hs
  | unregister d =>
    simp only [Devices.next] at hnext
    split at hnext
    · rename_i hd
      rcases Option.bind_eq_some_iff.mp hnext with ⟨⟨r, s1⟩, hunreg, hnext⟩
      cases hnext
      exact h.unregister hd hunreg
    · cases hnext

/-- In every run that registers devices without a parent only, lookups return and
are right, and the lists of children are. -/
theorem device_registry {s : State}
    (h : Reachable Init (Guarded Parentless next) s) :
    Kept s := by
  have hs : Ok s := by
    refine h.guarded ?_ Ok.next
    rintro s ⟨hempty, hlists⟩
    have hlinked : Linked s.devices [] (fun _ c => c ∈ s.registered) s.links
        fun _ => [] := by
      refine ⟨⟨hlists, ?_, ?_, ?_⟩, ?_, ?_⟩ <;> simp [hempty]
    rw [<- hempty] at hlinked
    refine ⟨⟨_, hlinked⟩, ?_, ?_⟩ <;> simp [hempty]
  exact hs.kept

def noDevices : State where
  links n := ⟨some n, some n⟩
  devices _ := ⟨[], none, none, none, none⟩
  foreign _ := []
  registered := []

theorem noDevices_init : Init noDevices where
  registered := rfl
  lists h := ⟨⟨rfl, rfl⟩, by simp⟩

/-- Two devices are registered, and the first is unregistered. -/
theorem device_registry_two :
    exists s, Transition.run next noDevices
        [.register 9 1 ⟨[97], none, some 5, none, none⟩,
          .register 9 2 ⟨[98], none, some 5, none, none⟩, .unregister 1] =
          some s ∧ s.registered = [2] ∧ Kept s := by
  have hinit : Reachable Init (Guarded Parentless next)
      noDevices := .init noDevices_init
  have hone := hinit.step
    (l := Step.register 9 1 ⟨[97], none, some 5, none, none⟩) ⟨rfl, rfl⟩
  have htwo := hone.step
    (l := Step.register 9 2 ⟨[98], none, some 5, none, none⟩) ⟨rfl, rfl⟩
  have hlast := htwo.step (l := Step.unregister 1) ⟨trivial, rfl⟩
  exact ⟨_, rfl, rfl, device_registry hlast⟩

theorem findLoop_cycle {name : List UInt8} {a b : Node}
    (hab : (s.links a).next = some b) (hba : (s.links b).next = some a)
    (ha : a ≠ .head .deviceList) (hb : b ≠ .head .deviceList)
    (hna : nameAt s a ≠ name) (hnb : nameAt s b ≠ name) (fuel : Nat) :
    findLoop s name fuel (some a) = none ∧
      findLoop s name fuel (some b) = none := by
  induction fuel with
  | zero => exact ⟨rfl, rfl⟩
  | succ fuel ih =>
    simp only [findLoop, ha, hb, hna, hnb, if_false, hab, hba]
    exact ih.symm

/-- The entry of a device that has a parent is on the list of children only, so
that a lookup of the parent goes in circles there. -/
theorem child_hides_parent :
    exists s, Transition.run next noDevices
        [.register 9 1 ⟨[97], none, none, none, none⟩,
          .register 9 2 ⟨[98], some 1, none, none, none⟩] = some s ∧
      1 ∈ s.registered ∧ (s.devices 1).name = [97] ∧
      (forall fuel, deviceFindByName s fuel (some [97]) = none) ∧
      next s (.unregister 2) = none := by
  refine ⟨_, rfl, by decide, rfl, fun fuel => ?_, rfl⟩
  show findLoop _ [97] fuel (some (.entry .siblings 2)) = none
  refine (findLoop_cycle (b := .children 1) rfl rfl ?_ ?_ ?_ ?_ fuel).left <;>
    decide

end Devices
end Horizon
