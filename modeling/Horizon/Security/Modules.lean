import Mathlib.Data.BitVec

/-!
# Security modules

This module follows the hooks of `security.c` and `capability.c` that change a
security context.  The registered modules stand in a list with the module that
was registered last in front, and a call runs the hook of every module of the
list on the same context until one of them fails.
-/

namespace Horizon
namespace Security

structure Context where
  uid : BitVec 32
  gid : BitVec 32
  euid : BitVec 32
  egid : BitVec 32
  suid : BitVec 32
  sgid : BitVec 32
  fsuid : BitVec 32
  fsgid : BitVec 32
  capInheritable : BitVec 32
  capPermitted : BitVec 32
  capEffective : BitVec 32
  deriving DecidableEq

def capSetgid : BitVec 32 := 0x00000040

def capSetuid : BitVec 32 := 0x00000080

def capAll : BitVec 32 := 0xFFFFFFFF

def securityAllocContext : Context where
  uid := 0
  gid := 0
  euid := 0
  egid := 0
  suid := 0
  sgid := 0
  fsuid := 0
  fsgid := 0
  capInheritable := 0
  capPermitted := capAll
  capEffective := capAll

def securityHasCapability (context : Context) (cap : BitVec 32) : Prop :=
  context.capEffective &&& cap ≠ 0

instance (context : Context) (cap : BitVec 32) :
    Decidable (securityHasCapability context cap) :=
  inferInstanceAs (Decidable (_ ≠ _))

inductive Module where
  | default
  | capability
  deriving DecidableEq

/-! ## The list of modules -/

def securityRegisterModule (modules : List Module) (m : Module) : List Module :=
  m :: modules

def securityUnregisterModule (modules : List Module) (m : Module) :
    List Module :=
  if m = Module.default then modules else modules.erase m

def securityInit : List Module := securityRegisterModule [] Module.default

/-- The lists after `security_init`.  A module that is in the list is not
registered again: its `next` pointer is already in use. -/
inductive Installed : List Module -> Prop where
  | init : Installed securityInit
  | register {modules : List Module} {m : Module} : Installed modules ->
      m ∉ modules -> Installed (securityRegisterModule modules m)
  | unregister {modules : List Module} {m : Module} : Installed modules ->
      Installed (securityUnregisterModule modules m)

/-! ## The hooks -/

/-- The fields that `default_task_create` and `capability_task_create` copy
alike. -/
def copyIds (parent child : Context) : Context :=
  { child with
    uid := parent.uid
    gid := parent.gid
    euid := parent.euid
    egid := parent.egid
    suid := parent.suid
    sgid := parent.sgid
    fsuid := parent.fsuid
    fsgid := parent.fsgid }

def defaultTaskCreate (parent child : Context) : Int × Context :=
  (0, { copyIds parent child with
    capInheritable := parent.capInheritable
    capPermitted := parent.capPermitted
    capEffective := parent.capEffective })

def capabilityTaskCreate (parent child : Context) : Int × Context :=
  (0, { copyIds parent child with
    capInheritable := parent.capInheritable
    capPermitted := parent.capPermitted &&& parent.capInheritable
    capEffective := parent.capEffective &&& parent.capInheritable })

/-- The check that both `setuid` hooks make. -/
def MaySetuid (context : Context) : Prop :=
  context.euid = 0 ∨ securityHasCapability context capSetuid

instance (context : Context) : Decidable (MaySetuid context) :=
  inferInstanceAs (Decidable (_ ∨ _))

def setUids (context : Context) (uid : BitVec 32) : Context :=
  { context with uid := uid, euid := uid, suid := uid, fsuid := uid }

def dropCapabilities (context : Context) : Context :=
  { context with
    capPermitted := context.capPermitted &&& context.capInheritable
    capEffective := context.capEffective &&& context.capInheritable }

def defaultTaskSetuid (context : Context) (uid : BitVec 32) : Int × Context :=
  if MaySetuid context then (0, setUids context uid) else (-1, context)

def capabilityTaskSetuid (context : Context) (uid : BitVec 32) :
    Int × Context :=
  if MaySetuid context then
    let context := setUids context uid
    (0, if uid ≠ 0 then dropCapabilities context else context)
  else (-1, context)

def defaultTaskSetgid (context : Context) (gid : BitVec 32) : Int × Context :=
  if context.euid = 0 ∨ securityHasCapability context capSetgid then
    (0, { context with gid := gid, egid := gid, sgid := gid, fsgid := gid })
  else (-1, context)

def capabilityTaskSetgid : Context -> BitVec 32 -> Int × Context :=
  defaultTaskSetgid

def Module.taskCreate : Module -> Context -> Context -> Int × Context
  | Module.default => defaultTaskCreate
  | Module.capability => capabilityTaskCreate

def Module.taskSetuid : Module -> Context -> BitVec 32 -> Int × Context
  | Module.default => defaultTaskSetuid
  | Module.capability => capabilityTaskSetuid

def Module.taskSetgid : Module -> Context -> BitVec 32 -> Int × Context
  | Module.default => defaultTaskSetgid
  | Module.capability => capabilityTaskSetgid

/-! ## The calls -/

def securityTaskCreate (parent : Context) :
    List Module -> Context -> Int × Context
  | [], child => (0, child)
  | m :: modules, child =>
      match m.taskCreate parent child with
      | (result, child) =>
          if result < 0 then (result, child)
          else securityTaskCreate parent modules child

def securityTaskSetuid (uid : BitVec 32) :
    List Module -> Context -> Int × Context
  | [], context => (0, context)
  | m :: modules, context =>
      match m.taskSetuid context uid with
      | (result, context) =>
          if result < 0 then (result, context)
          else securityTaskSetuid uid modules context

def securityTaskSetgid (gid : BitVec 32) :
    List Module -> Context -> Int × Context
  | [], context => (0, context)
  | m :: modules, context =>
      match m.taskSetgid context gid with
      | (result, context) =>
          if result < 0 then (result, context)
          else securityTaskSetgid gid modules context

end Security
end Horizon
