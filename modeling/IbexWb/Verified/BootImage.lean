import IbexWb.Verified.ImageConverters
import IbexWb.Verified.SocDevice

/-! # From the image of a program to what the cores read

`spramx32` starts with what `$readmemh` reads from the file that `hex2vmem.pl` makes of an image,
and its other words start with any contents.  From then on the SoC with the shared bus is the
sequential device that starts with the image, as long as the granted requests lie in the regions.
-/

namespace IbexWb.IbexSoc

open IbexWb.Synchronous SharedBus Memory Scripts
open Core2wb (defaultPending)
open RamLed (wordAddress Device)

/-- `$readmemh` accepts the file, and the RAM holds the words that the file has. -/
def Loaded (ram : Spramx32.State ramSize.toNat) (file : List Char) : Prop :=
  ∃ contents, readmemh file = some contents ∧
    ∀ (index : Fin (ramSize.toNat >>> 2)) word, contents index = some word → ram.mem index = word

/-- The image, over the words that the RAM powers up with. -/
def booted (records : List Record) (ram : Spramx32.State ramSize.toNat) : Device 4 where
  memory address :=
    match image records (address / 4) with
    | some word => byte word (address % 4)
    | none => ofWords 0 ram.mem address
  led := 0

/-! ## Devices that agree on the RAM -/

structure SameRam (left right : Device 4) : Prop where
  memory : ∀ address, address < ramSize.toNat → left.memory address = right.memory address
  led : left.led = right.led

namespace SameRam

variable {left right : Device 4}

theorem exec (same : SameRam left right) (access : CoreMaster) :
    SameRam (left.exec map access) (right.exec map access) := by
  cases writes : access.we with
  | false =>
    rw [left.exec_of_read writes, right.exec_of_read writes]
    exact same
  | true =>
    simp only [Device.exec, writes, if_true]
    by_cases ram : map.params.Covers 0 access.addr
    · rw [if_pos ram, if_pos ram]
      refine ⟨fun address inside => ?_, same.led⟩
      simp only [store, same.memory address inside]
    · rw [if_neg ram, if_neg ram]
      split
      · exact ⟨same.memory, rfl⟩
      · exact same

theorem foldl (same : SameRam left right) (log : List CoreMaster) :
    SameRam (log.foldl (Device.exec map) left) (log.foldl (Device.exec map) right) := by
  induction log generalizing left right with
  | nil => exact same
  | cons access rest inductionHypothesis => exact inductionHypothesis (same.exec access)

theorem read (same : SameRam left right) (adr : Adr) : left.read map adr = right.read map adr := by
  rw [Device.read, Device.read]
  by_cases ram : map.params.Covers 0 adr
  · rw [if_pos ram, if_pos ram]
    refine ofBytes_congr fun index bound => same.memory _ ?_
    obtain ⟨_, below⟩ := map.covers_ram.mp ram
    have whole : map.ramBase.toNat + map.ramSize = 4 * 16384 := rfl
    have size : ramSize.toNat = 4 * 16384 := rfl
    rw [wordAddress]
    omega
  · rw [if_neg ram, if_neg ram, same.led]

end SameRam

/-! ## The image -/

variable {records : List Record} {ram : Spramx32.State ramSize.toNat}

variable (ram) in
theorem ofWords_byte (address : Nat) (inside : address < ramSize.toNat) :
    ∃ index : Fin (ramSize.toNat >>> 2), index.val = address / 4 ∧
      ofWords 0 ram.mem address = byte (ram.mem index) (address % 4) := by
  have size : ramSize.toNat = 4 * 16384 := rfl
  have words : ramSize.toNat >>> 2 = 16384 := rfl
  refine ⟨⟨address / 4, by omega⟩, rfl, ?_⟩
  rw [ofWords, dif_pos ⟨Nat.zero_le _, by omega⟩]
  rfl

theorem sameRam_booted (disjoint : Disjoint records) (harmless : Harmless records)
    (loaded : Loaded ram (hex2vmem (render records))) :
    SameRam (Device.initial map 4 ram) (booted records ram) := by
  obtain ⟨contents, accepted, holds⟩ := loaded
  rw [readmemh_hex2vmem, load_of_harmless disjoint harmless, Option.some.injEq] at accepted
  refine ⟨fun address inside => ?_, rfl⟩
  obtain ⟨index, position, bytes⟩ := ofWords_byte ram address inside
  show ofWords 0 ram.mem address = match image records (address / 4) with
    | some word => byte word (address % 4)
    | none => ofWords 0 ram.mem address
  cases belongs : image records (address / 4) with
  | none => rfl
  | some word =>
    rw [bytes, holds index word]
    rw [← accepted, position, belongs]

/-! ## Reads -/

/-- In every run whose granted requests lie in the regions, each granted read of the RAM or the LED
port is answered in the next cycle with what the device reads that started with the image and
executed the requests granted before. -/
theorem boots (disjoint : Disjoint records) (harmless : Harmless records)
    (loaded : Loaded ram (hex2vmem (render records))) {numm : Nat}
    {input : Nat → System.Input numm 3} {cycle : Nat} {i : Fin numm}
    (mapped : ∀ earlier, earlier < cycle + 1 → ∀ i, (seen ram input earlier i).gnt = true →
      params.Mapped ((input earlier).core i).addr)
    (taken : (seen ram input cycle i).gnt = true) (reads : ((input cycle).core i).we = false)
    (covers : map.params.Mapped ((input cycle).core i).addr) :
    (seen ram input (cycle + 1) i).rvalid = true ∧ (seen ram input (cycle + 1) i).err = false ∧
      (seen ram input (cycle + 1) i).rdata =
        ((grants ram input cycle).foldl (Device.exec map) (booted records ram)).read map
          ((input cycle).core i).addr := by
  have decodes : ∀ earlier, earlier < cycle + 1 → ∀ i, (seen ram input earlier i).gnt = true →
      System.decoded params ((input earlier).core i).addr = true := by
    intro earlier before i granted
    obtain ⟨j, covered⟩ := mapped earlier before i granted
    exact decide_eq_true ⟨j, ss_iff.mpr covered⟩
  refine ⟨?_, System.seen_err _ _ _ _ _ _, ?_⟩
  · rw [System.seen_rvalid_succ params (slaves ram) input defaultPending (by decide) cycle decodes]
    exact taken
  · rw [rdata_of_granted taken reads covers, reference]
    exact ((sameRam_booted disjoint harmless loaded).foldl _).read _

/-- The instruction port fetches the word behind the first one. -/
def fetches (_ : Nat) : System.Input 3 3 :=
  ⟨![.idle, .idle, { CoreMaster.idle with req := true, addr := 4 }], fun _ => 0⟩

/-- A RAM that holds the one word of `nextWord`. -/
def oneWord : Spramx32.State ramSize.toNat :=
  ⟨fun index => if index.val = 1 then 0x01010101 else 0, 0⟩

theorem boots_fetches : (seen oneWord fetches 1 2).rdata = 0x01010101 := by
  have disjoint : Disjoint [nextWord] := fun first second _ _ _ =>
    Subsingleton.elim (α := Fin 1) first second
  have harmless : Harmless [nextWord] := by
    intro record index _ inside
    obtain rfl : record = 0 := Subsingleton.elim (α := Fin 1) _ _
    exact absurd inside (Nat.not_lt_zero index)
  have loaded : Loaded oneWord (hex2vmem (render [nextWord])) := by
    refine ⟨_, readmemh_hex2vmem _, fun index word belongs => ?_⟩
    rw [load_of_harmless disjoint harmless, image, List.findSome?_singleton,
      Record.word?_eq_some] at belongs
    obtain ⟨⟨above, below⟩, rfl⟩ := belongs
    have one : index.val = 1 := Nat.le_antisymm (Nat.le_of_lt_succ below) above
    show (if index.val = 1 then _ else _) = _
    rw [if_pos one, one]
    decide
  have taken : (seen oneWord fetches 0 2).gnt = true := by
    rw [System.seen_gnt]
    decide
  have inside : ∀ i, params.Mapped ((fetches 0).core i).addr := by decide
  have mapped : ∀ earlier, earlier < 0 + 1 → ∀ i, (seen oneWord fetches earlier i).gnt = true →
      params.Mapped ((fetches earlier).core i).addr := fun _ _ i _ => inside i
  have read := boots disjoint harmless loaded mapped taken rfl ⟨0, by decide⟩
  exact read.2.2.trans (by decide)

end IbexWb.IbexSoc
