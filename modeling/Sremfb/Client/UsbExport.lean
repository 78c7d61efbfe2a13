import Mathlib.Data.List.Infix
import Mathlib.Logic.Function.Basic
import Sremfb.Lib.Run

/-!
# Giving the USB devices back (`usbexport.c`)

The client binds the eligible devices of its machine to `usbip-host`, rescans every other second
for devices plugged meanwhile, and unbinds what it bound when it stops.  What it bound it knows from
`bound`, sixteen bus ids.

`Sysfs` is the machine: the devices by bus id with the driver each is bound to, and the network
interfaces, disks and mounts the guards look through.  All of it may change between two scans.
`UsbClient` adds to the client's own state what only the machine knows, which devices the client
bound since they were plugged in (`ours`), and a record of every bind with the machine as it was at
that moment.

The policy half needs no bookkeeping: `Excluded` is decided anew for every directory entry, before
the allow list is asked.  The other half does.  A device that is unplugged stays in `bound`, one
that comes back is entered again, and entry number seventeen is not made (`bound_eq`).  So what
`usb_export_stop` gives back is decided by the first sixteen binds of the process.
-/

namespace Sremfb

open Lib

/-! ## The machine -/

/-- A file name, a bus id, a line of text. -/
abbrev Name := List Char

/-- The driver a device is bound to, as far as it matters here. -/
inductive UsbDriver
  | none
  | usb
  | usbipHost
  deriving DecidableEq, Repr

/-- A device directory of `/sys/bus/usb/devices`; an attribute that cannot be read is `none`. -/
structure UsbDevice where
  idVendor : Option ℕ
  idProduct : Option ℕ
  bDeviceClass : Option ℕ
  driver : UsbDriver
  deriving DecidableEq

/-- An interface directory, `busid:config.interface`. -/
structure UsbInterface where
  name : Name
  bInterfaceClass : Option ℕ
  driver : Option Name

/-- An entry of `/sys/class/net`; `device` is the real path behind its link. -/
structure NetInterface where
  name : Name
  operstate : Option Name
  device : Option Name

/-- An entry of `/sys/block`. -/
structure Disk where
  name : Name
  device : Option Name

/-- What the guards and the class policy look through. -/
structure Surroundings where
  interfaces : List UsbInterface := []
  net : List NetInterface := []
  block : List Disk := []
  /-- The lines of `/proc/mounts` and of `/proc/swaps`. -/
  mounts : List Name := []
  swaps : List Name := []

structure Sysfs where
  devices : Name → Option UsbDevice
  around : Surroundings

namespace Sysfs

/-- Drivers change by writes to sysfs. -/
def setDriver (w : Sysfs) (busid : Name) (d : UsbDriver) : Sysfs :=
  { w with devices := fun b => if b = busid then (w.devices b).map ({ · with driver := d })
      else w.devices b }

/-- `device_bound_to_usbip`. -/
def deviceBoundToUsbip (w : Sysfs) (busid : Name) : Bool :=
  (w.devices busid).any (·.driver = .usbipHost)

end Sysfs

/-! ## The policy -/

/-- `struct usb_id`. -/
structure UsbId where
  vendor : ℕ
  /-- Negative for any product of this vendor. -/
  product : ℤ
  deriving DecidableEq

/-- `id_match`. -/
def idMatch (ids : List UsbId) (v p : ℕ) : Bool :=
  ids.any fun id => decide (id.vendor = v) && (decide (id.product < 0) || decide (id.product = p))

def builtinDeny : List UsbId := [⟨0x0424, 0xec00⟩, ⟨0x0424, 0x7800⟩]

/-- `builtin_denied`. -/
def builtinDenied (v p : ℕ) : Bool := idMatch builtinDeny v p

/-- `path_under_device`, on the real path; the needle is cut to its buffer. -/
def pathUnderDevice (real : Option Name) (busid : Name) : Bool :=
  real.any fun real => decide (('/' :: busid ++ ['/']).take 63 <:+: real) ||
    decide (('/' :: busid).take 63 <:+ real)

/-- `guards_nic`. -/
def guardsNic (w : Sysfs) (busid : Name) : Bool :=
  w.around.net.any fun n =>
    decide (n.name.head? ≠ some '.') && decide (n.name ≠ ['l', 'o']) &&
      n.operstate.any (fun s => decide (s ≠ ['d', 'o', 'w', 'n'])) &&
      pathUnderDevice n.device busid

/-- The device file of a disk, as the lines of `/proc/mounts` begin with it. -/
def Disk.dev (k : Disk) : Name := ("/dev/".toList ++ k.name.take 47).take 63

/-- `guards_mounted`. -/
def guardsMounted (w : Sysfs) (busid : Name) : Bool :=
  w.around.block.any fun k =>
    decide (k.name.head? ≠ some '.') && pathUnderDevice k.device busid &&
      (w.around.mounts ++ w.around.swaps).any fun line => decide (k.dev <+: line)

/-- `class_eligible`. -/
def classEligible (cls : ℕ) : Bool :=
  decide (cls = 0x03) || decide (cls = 0x08) || decide (cls = 0x02) || decide (cls = 0x0a)

def eligibleDrivers : List Name :=
  ["usbhid".toList, "usb-storage".toList, "uas".toList, "cdc_acm".toList, "ftdi_sio".toList,
    "cp210x".toList, "pl2303".toList, "ch341".toList]

/-- `device_eligible`. -/
def deviceEligible (w : Sysfs) (busid : Name) : Bool :=
  w.around.interfaces.any fun i => decide (busid ++ [':'] <+: i.name) &&
    (i.bInterfaceClass.any classEligible || i.driver.any (· ∈ eligibleDrivers))

/-- What the policy never exports, whatever the allow list says. -/
inductive Excluded (deny : List UsbId) (w : Sysfs) (busid : Name) : Prop
  | hub (d : UsbDevice) (hd : w.devices busid = some d) (hc : d.bDeviceClass = some 0x09)
  | denied (d : UsbDevice) (v p : ℕ) (hd : w.devices busid = some d) (hv : d.idVendor = some v)
      (hp : d.idProduct = some p) (id : UsbId) (hid : id ∈ builtinDeny ++ deny)
      (hm : id.vendor = v ∧ (id.product < 0 ∨ id.product = p))
  | nic (n : NetInterface) (hn : n ∈ w.around.net) (hname : n.name.head? ≠ some '.')
      (hlo : n.name ≠ ['l', 'o']) (s : Name) (hs : n.operstate = some s)
      (hup : s ≠ ['d', 'o', 'w', 'n']) (hu : pathUnderDevice n.device busid = true)
  | mounted (k : Disk) (hk : k ∈ w.around.block) (hname : k.name.head? ≠ some '.')
      (hu : pathUnderDevice k.device busid = true) (line : Name)
      (hl : line ∈ w.around.mounts ++ w.around.swaps) (hm : k.dev <+: line)

/-- The checks of `scan_and_bind` before the allow list see everything the policy excludes. -/
lemma not_excluded {deny : List UsbId} {w : Sysfs} {busid : Name} {d : UsbDevice} {v p : ℕ}
    (hd : w.devices busid = some d) (hv : d.idVendor = some v) (hp : d.idProduct = some p)
    (hc : d.bDeviceClass ≠ some 0x09) (hid : (builtinDenied v p || idMatch deny v p) = false)
    (hn : guardsNic w busid = false) (hm : guardsMounted w busid = false) :
    ¬Excluded deny w busid := by
  intro h
  cases h with
  | hub d' hd' hc' =>
      obtain rfl : d = d' := by simpa [hd] using hd'
      exact hc hc'
  | denied d' v' p' hd' hv' hp' id hid' hm' =>
      obtain rfl : d = d' := by simpa [hd] using hd'
      obtain rfl : v = v' := by simpa [hv] using hv'
      obtain rfl : p = p' := by simpa [hp] using hp'
      have hmatch : idMatch (builtinDeny ++ deny) v p = true :=
        List.any_eq_true.mpr ⟨id, hid', by simpa using hm'⟩
      rw [idMatch, List.any_append] at hmatch
      rw [builtinDenied, idMatch, idMatch, hmatch] at hid
      cases hid
  | nic n hn' hname hlo s hs hup hu =>
      have hit : guardsNic w busid = true :=
        List.any_eq_true.mpr ⟨n, hn', by simp [hname, hlo, hs, hup, hu]⟩
      simp [hn] at hit
  | mounted k hk hname hu line hl hpre =>
      have hit : guardsMounted w busid = true := by
        refine List.any_eq_true.mpr ⟨k, hk, ?_⟩
        rw [Bool.and_eq_true, List.any_eq_true]
        exact ⟨by simp [hname, hu], line, hl, by simpa using hpre⟩
      simp [hm] at hit

/-! ## The export -/

/-- `MAX_BOUND`. -/
def maxBound : ℕ := 16

/-- `struct U`. -/
structure UsbExport where
  active : Bool := false
  allow : List UsbId := []
  deny : List UsbId := []
  bound : List Name := []

/-- The export, the machine it runs on, and what of the machine is its doing. -/
structure UsbClient where
  u : UsbExport
  sys : Sysfs
  /-- The device at this bus id was bound by this process since it was plugged in. -/
  ours : Name → Bool := fun _ => false
  /-- Every bind, with the machine at that moment. -/
  log : List (Name × Sysfs) := []

namespace UsbClient

/-- The bus ids bound so far, with repetitions. -/
def binds (c : UsbClient) : List Name := c.log.map Prod.fst

end UsbClient

/-- `is_busid`. -/
def isBusid (name : Name) : Bool :=
  name.all (fun ch => decide (ch = '-') || decide (ch = '.') || ch.isDigit) &&
    decide (name.count '-' = 1)

/-- The writes whose result the code reads: "add" to `match_busid`, and `bind`. -/
structure UsbWrites where
  add : Name → Bool := fun _ => true
  bind : Name → Bool := fun _ => true

/-- `bind_device`. -/
def bindDevice (k : UsbWrites) (w : Sysfs) (busid : Name) : Sysfs × Bool :=
  if !k.add busid then (w, false)
  -- the device is already off its driver and goes back there
  else if !k.bind busid then (w.setDriver busid .usb, false)
  else (w.setDriver busid .usbipHost, true)

/-- `unbind_device`: off `usbip-host`, and whatever has no driver goes to the generic one. -/
def unbindDevice (w : Sysfs) (busid : Name) : Sysfs := w.setDriver busid .usb

/-- One directory entry of `scan_and_bind`. -/
def scanEntry (k : UsbWrites) (c : UsbClient) (dName : Name) : UsbClient :=
  if !isBusid dName then c
  else
    let busid := dName.take 63
    let dev := c.sys.devices busid
    if c.sys.deviceBoundToUsbip busid then c
    else
      match dev.bind UsbDevice.idVendor, dev.bind UsbDevice.idProduct with
      | some vend, some prod =>
          if dev.bind UsbDevice.bDeviceClass = some 0x09 then c
          else if builtinDenied vend prod || idMatch c.u.deny vend prod then c
          else if guardsNic c.sys busid then c
          else if guardsMounted c.sys busid then c
          else if !idMatch c.u.allow vend prod && !deviceEligible c.sys busid then c
          else
            let (sys, ok) := bindDevice k c.sys busid
            if ok then
              { u := { c.u with
                  bound := if c.u.bound.length < maxBound then c.u.bound ++ [busid]
                    else c.u.bound }
                sys := sys
                ours := Function.update c.ours busid true
                log := c.log ++ [(busid, c.sys)] }
            else { c with sys := sys }
      | _, _ => c

/-- `scan_and_bind`, on what `readdir` gives. -/
def scanAndBind (k : UsbWrites) (listing : List Name) (c : UsbClient) : UsbClient :=
  listing.foldl (scanEntry k) c

/-- `usb_export_tick`. -/
def usbExportTick (k : UsbWrites) (listing : List Name) (c : UsbClient) : UsbClient :=
  if c.u.active then scanAndBind k listing c else c

/-- `usb_export_stop`. -/
def usbExportStop (c : UsbClient) : UsbClient :=
  if !c.u.active then c
  else { c with
    u := { c.u with active := false, bound := [] }
    sys := c.u.bound.foldl unbindDevice c.sys }

/-- What `usb_export_init` asks its surroundings. -/
structure ExportEnv where
  mode : ℤ
  /-- `SREMFB_USB` as a number, when it is set and not empty. -/
  sremfbUsb : Option ℤ
  pi3 : Bool
  /-- The kernel has `usbip-host`. -/
  usbipHost : Bool
  usbipd : Bool
  allow : List UsbId
  deny : List UsbId

/-- The master switch. -/
def ExportEnv.wanted (e : ExportEnv) : Bool :=
  let mode := if e.mode < 0 then (e.sremfbUsb.map fun v => if v ≠ 0 then 1 else 0).getD e.mode
    else e.mode
  let mode := if mode < 0 then (if e.pi3 then 0 else 1) else mode
  decide (mode ≠ 0)

/-- `usb_export_init`, with its first scan. -/
def usbExportInit (e : ExportEnv) (k : UsbWrites) (listing : List Name) (w : Sysfs) : UsbClient :=
  if !e.wanted || !e.usbipHost || !e.usbipd then { u := {}, sys := w }
  else scanAndBind k listing
    { u := { active := true, allow := e.allow, deny := e.deny }, sys := w }

/-- What happens while the client runs. -/
inductive UsbEvent
  | plug (busid : Name) (d : UsbDevice)
  | unplug (busid : Name)
  /-- Somebody else binds a device. -/
  | moved (busid : Name) (d : UsbDriver)
  /-- Interfaces, disks and mounts come and go. -/
  | surroundings (a : Surroundings)
  | tick (listing : List Name) (k : UsbWrites)

namespace UsbClient

def step (c : UsbClient) : UsbEvent → UsbClient
  | .plug busid d => { c with
      sys := { c.sys with devices := Function.update c.sys.devices busid (some d) }
      ours := Function.update c.ours busid false }
  | .unplug busid => { c with
      sys := { c.sys with devices := Function.update c.sys.devices busid none }
      ours := Function.update c.ours busid false }
  | .moved busid d => { c with
      sys := c.sys.setDriver busid d
      ours := Function.update c.ours busid false }
  | .surroundings a => { c with sys := { c.sys with around := a } }
  | .tick listing k => usbExportTick k listing c

/-! ## What a directory entry does -/

/-- `bind_device` succeeded and was entered, if there was room. -/
def bindOne (c : UsbClient) (busid : Name) : UsbClient where
  u := { c.u with
    bound := if c.u.bound.length < maxBound then c.u.bound ++ [busid] else c.u.bound }
  sys := c.sys.setDriver busid .usbipHost
  ours := Function.update c.ours busid true
  log := c.log ++ [(busid, c.sys)]

/-- The outcomes of a directory entry. -/
inductive Scanned (c : UsbClient) : UsbClient → Prop
  | same : Scanned c c
  | failed (busid : Name) : Scanned c { c with sys := c.sys.setDriver busid .usb }
  | bound (busid : Name) (h : ¬Excluded c.u.deny c.sys busid) : Scanned c (c.bindOne busid)

lemma scanEntry_scanned (k : UsbWrites) (c : UsbClient) (dName : Name) :
    Scanned c (scanEntry k c dName) := by
  unfold scanEntry
  by_cases hname : (!isBusid dName) = true
  · rw [if_pos hname]
    exact .same
  rw [if_neg hname]
  dsimp only
  by_cases hours : c.sys.deviceBoundToUsbip (dName.take 63) = true
  · rw [if_pos hours]
    exact .same
  rw [if_neg hours]
  split
  · rename_i v p hv hp
    obtain ⟨d, hd, hv⟩ := Option.bind_eq_some_iff.mp hv
    obtain ⟨d', hd', hp⟩ := Option.bind_eq_some_iff.mp hp
    obtain rfl : d = d' := by simpa [hd] using hd'
    by_cases hc : (c.sys.devices (dName.take 63)).bind UsbDevice.bDeviceClass = some 0x09
    · rw [if_pos hc]
      exact .same
    rw [if_neg hc]
    split <;> rename_i hid
    · exact .same
    split <;> rename_i hn
    · exact .same
    split <;> rename_i hm
    · exact .same
    split
    · exact .same
    have hpolicy : ¬Excluded c.u.deny c.sys (dName.take 63) := by
      refine not_excluded hd hv hp ?_ (by simpa using hid) (by simpa using hn) (by simpa using hm)
      simpa [hd] using hc
    unfold bindDevice
    split
    · exact .same
    split
    · exact .failed _
    · exact .bound _ hpolicy
  · exact .same

/-! ## The invariant -/

/-- The list is the first sixteen binds, and no bind was against the policy. -/
structure Kept (deny : List UsbId) (c : UsbClient) : Prop where
  denies : c.u.active = true → c.u.deny = deny
  off : c.u.active = false → c.log = []
  bound_eq : c.u.bound = c.binds.take maxBound
  lawful : ∀ x ∈ c.log, ¬Excluded deny x.2 x.1

lemma take_append_of_room {α : Type*} {l : List α} {n : ℕ} (a : α) :
    (l ++ [a]).take n = if (l.take n).length < n then l.take n ++ [a] else l.take n := by
  by_cases hn : l.length < n
  · have hl : l.take n = l := List.take_of_length_le hn.le
    rw [hl, if_pos hn]
    exact List.take_of_length_le (by simpa using Nat.succ_le_of_lt hn)
  · rw [not_lt] at hn
    rw [if_neg (by simp [hn]), List.take_append_of_le_length hn]

lemma Kept.scanEntry {deny : List UsbId} {c : UsbClient} (h : Kept deny c)
    (ha : c.u.active = true) (k : UsbWrites) (dName : Name) :
    Kept deny (scanEntry k c dName) ∧ (Sremfb.scanEntry k c dName).u.active = true := by
  have hs := scanEntry_scanned k c dName
  generalize Sremfb.scanEntry k c dName = d at hs
  cases hs with
  | same => exact ⟨h, ha⟩
  | failed busid => exact ⟨⟨h.denies, h.off, h.bound_eq, h.lawful⟩, ha⟩
  | bound busid hp =>
      have hon : (c.bindOne busid).u.active = true := ha
      refine ⟨⟨h.denies, fun hoff => by simp [hon] at hoff, ?_, fun x hx => ?_⟩, ha⟩
      · simp only [bindOne, binds, List.map_append, List.map_cons, List.map_nil]
        rw [take_append_of_room, h.bound_eq]
        rfl
      · rcases List.mem_append.mp hx with hx | hx
        · exact h.lawful x hx
        · obtain rfl := List.mem_singleton.mp hx
          exact h.denies ha ▸ hp

lemma Kept.scan {deny : List UsbId} {c : UsbClient} (h : Kept deny c) (ha : c.u.active = true)
    (k : UsbWrites) (listing : List Name) : Kept deny (scanAndBind k listing c) :=
  (run_keeps (P := fun c => Kept deny c ∧ c.u.active = true)
    (fun _ dName hc => hc.1.scanEntry hc.2 k dName) ⟨h, ha⟩ listing).1

lemma Kept.step {deny : List UsbId} {c : UsbClient} (ev : UsbEvent) (h : Kept deny c) :
    Kept deny (c.step ev) := by
  cases ev with
  | plug | unplug | moved | surroundings => exact ⟨h.denies, h.off, h.bound_eq, h.lawful⟩
  | tick listing k =>
      by_cases ha : c.u.active = true
      · simp only [UsbClient.step, usbExportTick, if_pos ha]
        exact h.scan ha k listing
      · simp only [UsbClient.step, usbExportTick, if_neg ha]
        exact h

lemma kept_init (e : ExportEnv) (k : UsbWrites) (listing : List Name) (w : Sysfs) :
    Kept e.deny (usbExportInit e k listing w) := by
  unfold usbExportInit
  split
  · exact ⟨nofun, fun _ => rfl, rfl, fun x hx => by cases hx⟩
  · have hempty : Kept e.deny
        { u := { active := true, allow := e.allow, deny := e.deny }, sys := w } :=
      ⟨fun _ => rfl, nofun, rfl, fun x hx => by cases hx⟩
    exact hempty.scan rfl k listing

/-! ## Stopping -/

lemma unbindDevice_bound (w : Sysfs) (b busid : Name) :
    (unbindDevice w b).deviceBoundToUsbip busid =
      (decide (busid ≠ b) && w.deviceBoundToUsbip busid) := by
  unfold unbindDevice Sysfs.setDriver Sysfs.deviceBoundToUsbip
  by_cases hb : busid = b
  · cases hd : w.devices b <;> simp [hb, hd]
  · simp [hb]

lemma foldl_unbindDevice (l : List Name) (w : Sysfs) (busid : Name) :
    (l.foldl unbindDevice w).deviceBoundToUsbip busid =
      (decide (busid ∉ l) && w.deviceBoundToUsbip busid) := by
  induction l generalizing w with
  | nil => simp
  | cons b l ih =>
      rw [List.foldl_cons, ih, unbindDevice_bound]
      by_cases hb : busid = b
      · simp [hb]
      · simp [hb]

lemma Kept.stop_bound {deny : List UsbId} {c : UsbClient} (h : Kept deny c) (busid : Name) :
    (usbExportStop c).sys.deviceBoundToUsbip busid =
      (decide (busid ∉ c.binds.take maxBound) && c.sys.deviceBoundToUsbip busid) := by
  unfold usbExportStop
  split <;> rename_i ha
  · have hnone : c.binds = [] := by rw [binds, h.off (by simpa using ha), List.map_nil]
    simp [hnone]
  · rw [← h.bound_eq]
    exact foldl_unbindDevice c.u.bound c.sys busid

end UsbClient

/-- **What is given back.**  In every run of hotplug events and scans, whatever the allow list:
no device was bound that the policy excluded at that moment; and stopping unbinds every device the
process bound and that is still bound exactly when each of these sits at a bus id of the process's
first sixteen binds. -/
theorem stop_unbinds_iff (e : ExportEnv) (k : UsbWrites) (listing : List Name) (w : Sysfs)
    (es : List UsbEvent) :
    let c := run UsbClient.step (usbExportInit e k listing w) es
    (∀ x ∈ c.log, ¬Excluded e.deny x.2 x.1) ∧
      ((∀ busid, c.ours busid = true → c.sys.deviceBoundToUsbip busid = true →
          (usbExportStop c).sys.deviceBoundToUsbip busid = false) ↔
        ∀ busid, c.ours busid = true → c.sys.deviceBoundToUsbip busid = true →
          busid ∈ c.binds.take maxBound) := by
  intro c
  have h : UsbClient.Kept e.deny c :=
    run_keeps (P := UsbClient.Kept e.deny) (fun _ ev hc => hc.step ev)
      (UsbClient.kept_init e k listing w) es
  refine ⟨h.lawful, forall_congr' fun busid => imp_congr_right fun _ => imp_congr_right fun hb => ?_⟩
  rw [h.stop_bound, hb]
  simp

/-- A keyboard. -/
def UsbDevice.keyboard : UsbDevice := ⟨some 0x046d, some 0xc31c, some 0, .usb⟩

/-- One keyboard comes and goes sixteen times.  Then another is plugged in, bound, and kept. -/
theorem seventeenth_bind_stays :
    let e : ExportEnv := ⟨1, none, false, true, true, [], []⟩
    let w : Sysfs := ⟨fun _ => none, { interfaces :=
      [⟨"1-1:1.0".toList, some 3, none⟩, ⟨"1-2:1.0".toList, some 3, none⟩] }⟩
    let c := run UsbClient.step (usbExportInit e {} [] w)
      ((List.replicate 16 [.plug "1-1".toList .keyboard, .tick ["1-1".toList] {},
        .unplug "1-1".toList]).flatten ++
        [.plug "1-2".toList .keyboard, .tick ["1-2".toList] {}])
    c.ours "1-2".toList = true ∧ c.sys.deviceBoundToUsbip "1-2".toList = true ∧
      (usbExportStop c).sys.deviceBoundToUsbip "1-2".toList = true := by
  decide +kernel

end Sremfb
