import IbexWb.Memory.Bytes
import IbexWb.Soc.RamLed

/-! # A device that executes one request at a time

`Device` says what a RAM and a LED port are for: a byte-addressed memory and a register.  `exec`
performs one request of a core, `read` is what a request reads.  The lemmas below compare them
with what the RAM and the LED port do when they are strobed for the same request.
-/

namespace IbexWb.RamLed

open Memory

structure Device (N : Nat) where
  memory : Nat → BitVec 8
  led : BitVec N

namespace Device

variable (map : RamLed) {N : Nat}

def initial (N : Nat) (ram : Spramx32.State map.ramSize) : Device N :=
  ⟨ofWords map.ramBase.toNat ram.mem, 0⟩

/-- A word of the memory, or the register with zeros in front. -/
def read (device : Device N) (adr : Adr) : Dat :=
  if map.params.Covers 0 adr then word device.memory (wordAddress adr) else device.led.setWidth 32

/-- A write to the memory stores the enabled bytes.  The register sits in the first word of its
region and takes the low bits of a write whatever the byte enables are. -/
def exec (device : Device N) (access : CoreMaster) : Device N :=
  if access.we then
    if map.params.Covers 0 access.addr then
      { device with
        memory := store device.memory (wordAddress access.addr) access.be access.wdata }
    else if wordAddress access.addr = map.ledBase.toNat then
      { device with led := access.wdata.setWidth N }
    else device
  else device

def words (device : Device N) : Fin (map.ramSize >>> 2) → Dat := fun index =>
  word device.memory (map.ramBase.toNat + 4 * index)

theorem words_initial (ram : Spramx32.State map.ramSize) : (initial map N ram).words map = ram.mem :=
  funext fun index => word_ofWords map.ramBase.toNat ram.mem index

variable {map} (device : Device N)

theorem exec_of_read {access : CoreMaster} (reads : access.we = false) :
    device.exec map access = device := by
  simp [exec, reads]

theorem exec_led_of_ram {access : CoreMaster} (covers : map.params.Covers 0 access.addr) :
    (device.exec map access).led = device.led := by
  cases writes : access.we <;> simp [exec, writes, covers]

theorem exec_words_of_led {access : CoreMaster} (covers : map.params.Covers 1 access.addr) :
    (device.exec map access).words map = device.words map := by
  have other : ¬ map.params.Covers 0 access.addr := fun ram => map.not_covers_both ram covers
  cases writes : access.we with
  | false => rw [device.exec_of_read writes]
  | true =>
    simp only [exec, writes, if_true, if_neg other]
    split <;> rfl

end Device

/-! ## The RAM -/

section Ram

variable {map : RamLed} {N pending : Nat}

theorem ramWe_wb (counts : Core2wb.Counts pending) (core : CoreMaster) :
    WbSpramx32.ramWe (Core2wb.wb counts core) = if core.we then core.be else 0 := by
  rw [WbSpramx32.ramWe, Core2wb.wb]
  cases core.we with
  | false => exact BitVec.zero_and
  | true => exact BitVec.allOnes_and

theorem write_zero (d old : Dat) : Spramx32.write 0#4 d old = old :=
  (ofBytes_congr fun index _ => by simp [Spramx32.lane, byte]).trans (ofBytes_byte old)

/-- The write port of the RAM stores exactly the enabled bytes. -/
theorem write_word (memory : Nat → BitVec 8) (address : Nat) (we : BitVec 4) (d : Dat) :
    Spramx32.write we d (word memory address) = word (store memory address we d) address :=
  (word_store_self memory address we d).symm

theorem words_exec (device : Device N) {core : CoreMaster} (covers : map.params.Covers 0 core.addr)
    (index : Fin (map.ramSize >>> 2)) :
    (device.exec map core).words map index =
      if (core.addr.toNat - map.ramBase.toNat) / 4 = index then
        Spramx32.write (if core.we then core.be else 0) core.wdata (device.words map index)
      else device.words map index := by
  have address := wordAddress_ram covers
  cases writes : core.we with
  | false =>
    rw [device.exec_of_read writes]
    split
    · exact (write_zero _ _).symm
    · rfl
  | true =>
    have stored : (device.exec map core).memory =
        store device.memory (wordAddress core.addr) core.be core.wdata := by
      simp [Device.exec, writes, covers]
    rw [Device.words, stored, address]
    -- only the addressed word meets the stored bytes
    split
    · next here =>
      rw [here, if_pos rfl]
      exact (write_word _ _ _ _).symm
    · next elsewhere =>
      exact word_store_of_apart _ _ _ (by omega)

/-- The RAM performs the request in one cycle, and reads the word as it was before. -/
theorem spramx32_next (device : Device N) (q : Dat) (counts : Core2wb.Counts pending)
    {core : CoreMaster} (covers : map.params.Covers 0 core.addr) :
    Spramx32.next ⟨device.words map, q⟩ (WbSpramx32.ramAddr map.ramSize (Core2wb.wb counts core)) true
        (WbSpramx32.ramWe (Core2wb.wb counts core)) core.wdata =
      ⟨(device.exec map core).words map, word device.memory (wordAddress core.addr)⟩ := by
  have index : (WbSpramx32.ramAddr map.ramSize (Core2wb.wb counts core)).toNat =
      (core.addr.toNat - map.ramBase.toNat) / 4 := ramAddr_toNat covers
  rw [Spramx32.next, ramWe_wb, Spramx32.read, dif_pos (by rw [index]; exact index_lt covers)]
  congr 1
  -- the contents, then the output register
  · funext target
    rw [words_exec device covers target, index]
    simp
  · simp only [if_true, Device.words, index, wordAddress_ram covers]

end Ram

/-! ## The LED port -/

section Led

variable {map : RamLed} {N pending : Nat}

theorem exec_led (device : Device N) (counts : Core2wb.Counts pending) {core : CoreMaster}
    (covers : map.params.Covers 1 core.addr) :
    (if core.we && WbLed.select (Core2wb.wb counts core) then core.wdata.setWidth N else device.led) =
      (device.exec map core).led := by
  have other : ¬ map.params.Covers 0 core.addr := fun ram => map.not_covers_both ram covers
  have selects : WbLed.select (Core2wb.wb counts core) = true ↔
      wordAddress core.addr = map.ledBase.toNat := select_iff covers
  cases writes : core.we with
  | false => simp [Device.exec, writes]
  | true =>
    simp only [Device.exec, writes, Bool.true_and, selects, if_true, if_neg other]
    split <;> rfl

end Led

end IbexWb.RamLed
