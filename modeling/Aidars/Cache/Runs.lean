import Aidars.Cache.CrashSafety
import Aidars.Foundations.Entries

/-!
# Runs of the parts of the cache

What a whole run of an index statement or of a removal returns, and the disk after it. The keys of
the index are in lowercase (`Lowercase`): every statement writes and reads them so.
-/

namespace Aidars.Cache

open Prog

variable {cfg : CacheConfig} {locked : String → Bool} {d : CacheDisk} {h : String}
  {entry : CacheEntry} {data : Bytes} {status : CacheState}

/-- The keys of the index are in lowercase. -/
def Lowercase (d : CacheDisk) : Prop := ∀ h ∈ d.entries.keys, lowerText h = h

/-! ## Disks -/

/-- The disk with another state in a row. -/
def setState (d : CacheDisk) (h : String) (status : CacheState) : CacheDisk :=
  { d with entries := d.entries.modify h ({ · with state := status }) }

/-- The disk without a row. -/
def dropRow (d : CacheDisk) (h : String) : CacheDisk := { d with entries := d.entries.erase h }

/-- The disk without an object file. -/
def dropObject (d : CacheDisk) (h : String) : CacheDisk := { d with objects := d.objects.erase h }

/-- The disk after an access to a row. -/
def touchRow (cfg : CacheConfig) (d : CacheDisk) (h : String) : CacheDisk :=
  { d with
    entries := d.entries.modify h (·.touched (cfg.clock d.readings)), readings := d.readings + 1 }

@[simp] theorem get?_setState (d : CacheDisk) (h h' : String) (status : CacheState) :
    (setState d h status).entries.get? h' =
      if h' = h then (d.entries.get? h).map ({ · with state := status }) else d.entries.get? h' :=
  Dict.get?_modify _ _ _ _

@[simp] theorem objects_setState (d : CacheDisk) (h : String) (status : CacheState) :
    (setState d h status).objects = d.objects := rfl

/-- A change of a state and back changes nothing. -/
theorem setState_setState (hentry : d.entries.get? h = some entry) :
    setState (setState d h status) h entry.state = d := by
  have hentries : (setState (setState d h status) h entry.state).entries = d.entries := by
    rw [setState, setState, Dict.modify_modify]
    refine Dict.modify_eq_self fun v hv => ?_
    obtain rfl := Option.some.inj (hentry.symm.trans hv)
    rfl
  exact congrArg (fun entries => { d with entries }) hentries

/-! ## Runs -/

theorem lowerText_lowerText (s : String) : lowerText (lowerText s) = lowerText s := by
  have hchar (c : Char) : c.toLower.toLower = c.toLower := by
    apply Char.toNat_inj.mp
    rw [toNat_toLower c.toLower, toNat_toLower c]
    grind
  simp [lowerText, lower, Function.comp_def, hchar]

/-- The outcome of a call is that of the operation. -/
theorem run_discard {α : Type} {m : CacheProg α} {r : Except CacheError α}
    (hrun : m.run d = (r, d')) :
    (do let _ ← m : CacheProg Unit).run d = (r.map fun _ => (), d') := by
  cases r with
  | ok a => exact run_bind_ok hrun _
  | error e => exact run_bind_error hrun _

theorem getEntry_of_lower (hlow : lowerText h = h) : getEntry d h = d.entries.get? h := by
  rw [getEntry, hlow]

theorem run_removeEntry (hlow : lowerText h = h) :
    (removeEntry h).run d = (.ok (d.entries.get? h).isSome, dropRow d h) := by
  rw [removeEntry, run_read_bind, run_step_bind, getEntry_of_lower hlow, hlow, run_pure, dropRow]

theorem run_touch (hlow : lowerText h = h) : (touch cfg h).run d = (.ok (), touchRow cfg d h) := by
  rw [touch, hlow]
  rfl

theorem run_deleteObject (hv : validateHash h = .ok h) (hdata : d.objects.get? h = some data)
    (hfree : locked h = false) : (deleteObject locked h).run d = (.ok true, dropObject d h) := by
  rw [deleteObject, hv, lift_ok_bind, run_read_bind, hdata, if_neg (by simp),
    run_failIf_bind (by simp [hfree]), run_step_bind, run_pure, dropObject]

theorem run_deleteObject_locked (hv : validateHash h = .ok h) (hdata : d.objects.get? h = some data)
    (hlocked : locked h = true) :
    (deleteObject locked h).run d = (.error (.locked h), d) := by
  rw [deleteObject, hv, lift_ok_bind, run_read_bind, hdata, if_neg (by simp),
    run_failIf_bind_of hlocked]

theorem run_deleteObject_none (hv : validateHash h = .ok h) (hdata : d.objects.get? h = none) :
    (deleteObject locked h).run d = (.ok false, d) := by
  rw [deleteObject, hv, lift_ok_bind, run_read_bind, hdata, if_pos Option.isNone_none, run_pure]

theorem run_deleteObject_invalid {e : CacheError} (hv : validateHash h = .error e) :
    (deleteObject locked h).run d = (.error e, d) := by
  rw [deleteObject, hv, lift_error_bind, run_raise]

theorem run_updateStatus (hlow : lowerText h = h) (hentry : d.entries.get? h = some entry)
    (hok : status ∈ validTransitions entry.state ∨ entry.state = status) :
    (updateStatus h status).run d = (.ok true, setState d h status) := by
  rw [updateStatus, run_read_bind, getEntry_of_lower hlow, hentry]
  dsimp only
  rw [run_failIf_bind (by tauto), run_step_bind, run_pure, hlow, setState]

theorem run_updateStatus_error (hlow : lowerText h = h) (hentry : d.entries.get? h = some entry)
    (hno : status ∉ validTransitions entry.state ∧ entry.state ≠ status) :
    (updateStatus h status).run d = (.error (.invalidTransition entry.state status), d) := by
  rw [updateStatus, run_read_bind, getEntry_of_lower hlow, hentry]
  dsimp only
  rw [run_failIf_bind_of hno]

end Aidars.Cache
