/-
# NcsExp.Pcd.Model -- updating the network core through shared RAM

`9pcd.c` and `9main.c`: the application core hands an image over to the network
core, which copies it into its own flash.  An image in external flash is moved
chunk by chunk through a buffer in shared RAM, under two flags of `struct pcd_cmd`.

Both cores are threads over the shared `PcdCmd` and RAM.  Every read and write of a
shared field, and every byte of `memcpy`, `memset` and of the chunk that the stream
reads, is one step; a value that has been read is carried by the program counter.

* `appStep`: `pcd_network_core_update` with `pcd_cmd_write` and `pcd_cmd_update`.
* `netStep`: the bootloader's `main` with `pcd_fw_copy`; the flash driver and the
  firmware validation answer as the environment chooses, 0 for success.

`flash` is what the stream has written.
-/
import NcsExp.Theory.Runs
import NcsExp.Theory.Memory
import Mathlib.Algebra.Group.Nat.Defs

namespace NcsExp.Pcd

open NcsExp.Theory

set_option autoImplicit false

/-! ## Data -/

def PCD_CMD_MAGIC_COPY : UInt32 := 0xb5b4b3b6

def PCD_CMD_MAGIC_FAIL : UInt32 := 0x25bafc15

def PCD_CMD_MAGIC_DONE : UInt32 := 0xf103ce5d

/-- Addresses from here on are in external flash. -/
def EXTERNAL_FLASH : Nat := 0x10000000

def EFAULT : Int := 14

/-- What `pcd_network_core_update` returns: 0, `-EINVAL` or `PCD_STATUS_COPY_FAILED`. -/
inductive UpdateResult
  | success
  | einval
  | copyFailed
  deriving DecidableEq

/-- `a - b` and `a + b` of `uint32_t`. -/
def sub32 (a b : Nat) : Nat := (a + 2 ^ 32 - b) % 2 ^ 32

def add32 (a b : Nat) : Nat := (a + b) % 2 ^ 32

/-- `struct pcd_cmd`. -/
structure PcdCmd where
  magic : UInt32
  data : Nat
  len : Nat
  offset : Nat
  imageChunk : Nat
  chunkLen : Nat
  bytesMoved : Nat
  imageChunkAvailable : Bool
  imageChunkWritten : Bool
  deriving DecidableEq

/-- A call of `pcd_network_core_update` and the build it runs in: `rom` is what the
cores read at the image's addresses, `pageSize` is
`CONFIG_NORDIC_QSPI_NOR_FLASH_LAYOUT_PAGE_SIZE`. -/
structure Update where
  srcAddr : Nat
  len : Nat
  fits : srcAddr + len ≤ 2 ^ 32
  rom : Memory UInt8
  shmStartAddr : Nat
  pageSize : Nat
  netCoreAppOffset : Nat

/-- The bytes to copy. -/
def Update.image (u : Update) : List UInt8 := u.rom.load u.srcAddr u.len

/-- An image in external flash. -/
structure Update.External (u : Update) : Prop where
  nonempty : 0 < u.len
  external : EXTERNAL_FLASH ≤ u.srcAddr

/-- Who called `pcd_cmd_update`. -/
inductive Caller
  | pcdCmdWrite
  | pcdNetworkCoreUpdate
  deriving DecidableEq

/-- The next statement of the application core, with what it has read. -/
inductive AppPc
  | cmdTest
  | cmdMagic
  | cmdData
  | cmdLen
  | cmdOffset
  | cmdMoved
  | update
  | setImageChunk
  | getLen
  | getMoved (len : Nat)
  | setChunkLen (bytesLeft : Nat)
  | copyDst
  | copyData (dst : Nat)
  | copyMoved (dst data : Nat)
  | copyLen (dst src : Nat)
  | copy (dst src n i : Nat)
  | addMoved
  | addLen (moved : Nat)
  | setMoved (sum : Nat)
  | clearWritten
  | setAvailable
  | forceOn
  | pollMagic
  | pollDone
  | pollWritten
  | forceOff
  | returned (err : UpdateResult)
  deriving DecidableEq

/-- The next statement of the network core, with what it has read; `off` is held in
reset. -/
inductive NetPc
  | off
  | status
  | dataPtr
  | validateSrc
  | copyMagic
  | init
  | copyData
  | internalData
  | internalLen (data : Nat)
  | loopMoved
  | loopLen (moved : Nat)
  | loopAvailable
  | chunkPtr
  | chunkLen (src : Nat)
  | chunkRead (src n : Nat) (got : List UInt8)
  | clearAvailable
  | setWritten
  | memsetDst (rc : Int)
  | memset (rc : Int) (dst i : Nat)
  | copyReturned (rc : Int)
  | validate
  | done
  | invalidate
  | halted
  | boot
  deriving DecidableEq

structure Machine where
  cmd : PcdCmd
  ram : Memory UInt8
  app : AppPc
  caller : Caller
  net : NetPc
  streamOffset : Nat
  flash : List UInt8

/-! ## The application core -/

/-- Where `pcd_cmd_update` returns to. -/
def Machine.afterUpdate (m : Machine) : AppPc :=
  match m.caller with
  | .pcdCmdWrite => .forceOn
  | .pcdNetworkCoreUpdate => .pollMagic

/-- One statement of `pcd_network_core_update`, lines 194-244, in `pcd_cmd_write`,
lines 171-191, and `pcd_cmd_update`, lines 141-163. -/
def appStep (u : Update) (m : Machine) : Option Machine :=
  match m.app with
  -- pcd_cmd_write
  | .cmdTest => some { m with
      app := if u.srcAddr = 0 ∨ u.len = 0 then .returned .einval else .cmdMagic }
  | .cmdMagic => some { m with
      cmd := { m.cmd with magic := PCD_CMD_MAGIC_COPY }, app := .cmdData }
  | .cmdData => some { m with cmd := { m.cmd with data := u.srcAddr }, app := .cmdLen }
  | .cmdLen => some { m with cmd := { m.cmd with len := u.len }, app := .cmdOffset }
  | .cmdOffset => some { m with
      cmd := { m.cmd with offset := u.netCoreAppOffset }, app := .cmdMoved }
  | .cmdMoved => some { m with cmd := { m.cmd with bytesMoved := 0 }, app := .update }
  -- pcd_cmd_update
  | .update => some { m with
      app := if EXTERNAL_FLASH ≤ m.cmd.data then .setImageChunk else m.afterUpdate }
  | .setImageChunk => some { m with
      cmd := { m.cmd with imageChunk := u.shmStartAddr }, app := .getLen }
  | .getLen => some { m with app := .getMoved m.cmd.len }
  | .getMoved len => some { m with app := .setChunkLen (sub32 len m.cmd.bytesMoved) }
  | .setChunkLen bytesLeft => some { m with
      cmd := { m.cmd with chunkLen := if bytesLeft > u.pageSize then u.pageSize else bytesLeft }
      app := .copyDst }
  | .copyDst => some { m with app := .copyData m.cmd.imageChunk }
  | .copyData dst => some { m with app := .copyMoved dst m.cmd.data }
  | .copyMoved dst data => some { m with app := .copyLen dst (data + m.cmd.bytesMoved) }
  | .copyLen dst src => some { m with app := .copy dst src m.cmd.chunkLen 0 }
  | .copy dst src n i =>
      if i < n then
        some { m with
          ram := m.ram.store (dst + i) [u.rom (src + i)]
          app := .copy dst src n (i + 1) }
      else some { m with app := .addMoved }
  | .addMoved => some { m with app := .addLen m.cmd.bytesMoved }
  | .addLen moved => some { m with app := .setMoved (add32 moved m.cmd.chunkLen) }
  | .setMoved sum => some { m with cmd := { m.cmd with bytesMoved := sum }, app := .clearWritten }
  | .clearWritten => some { m with
      cmd := { m.cmd with imageChunkWritten := false }, app := .setAvailable }
  | .setAvailable => some { m with
      cmd := { m.cmd with imageChunkAvailable := true }, app := m.afterUpdate }
  -- pcd_network_core_update
  | .forceOn => some { m with net := .status, app := .pollMagic }
  | .pollMagic => some { m with
      app := if m.cmd.magic = PCD_CMD_MAGIC_COPY then .pollWritten else .pollDone }
  | .pollDone => some { m with
      app := if m.cmd.magic = PCD_CMD_MAGIC_DONE then .forceOff
        else .returned .copyFailed }
  | .pollWritten =>
      if m.cmd.imageChunkWritten then
        some { m with app := .update, caller := .pcdNetworkCoreUpdate }
      else some { m with app := .pollMagic }
  | .forceOff => some { m with net := .off, app := .returned .success }
  | .returned _ => none

/-! ## The network core -/

/-- One statement of the bootloader's `main`, `9main.c` lines 34-90, and of
`pcd_fw_copy`, lines 76-129; `answer` is what the driver or the validation returns
to a statement that calls it. -/
def netStep (u : Update) (m : Machine) (answer : Int) : Option Machine :=
  match m.net with
  | .off => none
  | .status => some { m with
      net := if m.cmd.magic = PCD_CMD_MAGIC_COPY then .dataPtr else .boot }
  | .dataPtr => some { m with
      net := if m.cmd.data < EXTERNAL_FLASH then .validateSrc else .copyMagic }
  | .validateSrc => some { m with net := if answer = 0 then .copyMagic else .invalidate }
  -- pcd_fw_copy
  | .copyMagic => some { m with
      net := if m.cmd.magic ≠ PCD_CMD_MAGIC_COPY then .copyReturned (-EFAULT) else .init }
  | .init => some { m with
      streamOffset := m.cmd.offset, net := if answer ≠ 0 then .copyReturned answer else .copyData }
  | .copyData => some { m with
      net := if m.cmd.data < EXTERNAL_FLASH then .internalData else .loopMoved }
  | .internalData => some { m with net := .internalLen m.cmd.data }
  | .internalLen data =>
      if answer = 0 then
        some { m with flash := m.flash ++ u.rom.load data m.cmd.len, net := .copyReturned 0 }
      else some { m with net := .copyReturned answer }
  | .loopMoved => some { m with net := .loopLen m.cmd.bytesMoved }
  | .loopLen moved => some { m with
      net := if moved < m.cmd.len then .loopAvailable else .memsetDst 0 }
  | .loopAvailable => some { m with
      net := if m.cmd.imageChunkAvailable then .chunkPtr else .loopMoved }
  | .chunkPtr => some { m with net := .chunkLen m.cmd.imageChunk }
  | .chunkLen src => some { m with net := .chunkRead src m.cmd.chunkLen [] }
  | .chunkRead src n got =>
      if got.length < n then
        some { m with net := .chunkRead src n (got ++ [m.ram (src + got.length)]) }
      else if answer = 0 then some { m with flash := m.flash ++ got, net := .clearAvailable }
      else some { m with net := .memsetDst answer }
  | .clearAvailable => some { m with
      cmd := { m.cmd with imageChunkAvailable := false }, net := .setWritten }
  | .setWritten => some { m with
      cmd := { m.cmd with imageChunkWritten := true }, net := .loopMoved }
  | .memsetDst rc => some { m with net := .memset rc m.cmd.imageChunk 0 }
  | .memset rc dst i =>
      if i < 4096 then
        some { m with ram := m.ram.store (dst + i) [0], net := .memset rc dst (i + 1) }
      else some { m with net := .copyReturned rc }
  -- main
  | .copyReturned rc => some { m with net := if rc = 0 then .validate else .invalidate }
  | .validate => some { m with net := if answer = 0 then .done else .invalidate }
  | .done => some { m with cmd := { m.cmd with magic := PCD_CMD_MAGIC_DONE }, net := .halted }
  | .invalidate => some { m with
      cmd := { m.cmd with magic := PCD_CMD_MAGIC_FAIL }, net := .halted }
  | .halted => none
  | .boot => none

/-! ## Steps -/

inductive Act
  | app
  | net (answer : Int)
  deriving DecidableEq

def step (u : Update) (m : Machine) : Act → Option Machine
  | .app => appStep u m
  | .net answer => netStep u m answer

/-- The application core is about to write the command and the network core is held
in reset; the shared RAM holds anything. -/
structure Init (m : Machine) : Prop where
  app : m.app = .cmdTest
  caller : m.caller = .pcdCmdWrite
  net : m.net = .off
  flash : m.flash = []

end NcsExp.Pcd
