import IbexWb.Verified.AesKeys

/-! # `nettle-aes.c` computes AES

For each accepted key size the functions of the library compute the permutation that AES chooses
for the key, and its inverse.
-/

namespace IbexWb.NettleAes

open Binary Cipher Memory
open Aes (Column State mixColumns unmixMatrix roundKey schedule expandedKey)

/-! ## The schedules -/

theorem schedule_congr {left right : Nat → Column} {rounds : Nat}
    (agree : ∀ i, i < 4 * (rounds + 1) → left i = right i) :
    schedule left rounds = schedule right rounds := by
  have same (round : Nat) (bound : round ≤ rounds) : roundKey left round = roundKey right round := by
    ext row column
    exact congrFun (agree (4 * round + column) (by omega)) row
  rw [schedule, schedule, same 0 (Nat.zero_le rounds), same rounds le_rfl]
  congr 1
  refine List.map_congr_left fun round member => same round ?_
  have bounds := List.mem_range'_1.mp member
  omega

theorem roundKey_inverted {rounds round : Nat} (bound : round ≤ rounds) (keys : Nat → BitVec 32) :
    roundKey (keyColumns (inverted rounds keys keys)) round =
      if 0 < round ∧ round < rounds then
        mixColumns.symm (roundKey (keyColumns keys) (rounds - round))
      else roundKey (keyColumns keys) (rounds - round) := by
  have word (column : Fin 4) : inverted rounds keys keys (4 * round + column) =
      if 0 < round ∧ round < rounds then
        mixColumn mtable (keys (4 * (rounds - round) + column))
      else keys (4 * (rounds - round) + column) := by
    have group : (4 * round + column.val) / 4 = round := by omega
    have place : (4 * round + column.val) % 4 = column := by omega
    rw [inverted, group, place, if_neg (by omega)]
    exact if_congr (by omega) rfl rfl
  ext row column
  show keyColumns (inverted rounds keys keys) (4 * round + column) row = _
  rw [keyColumns, word]
  split
  · rw [columnOf_mixColumn]
    rfl
  · rfl

/-- The inverted subkeys are the schedule of the inverse cipher. -/
theorem schedule_inverted (rounds : Nat) (keys : Nat → BitVec 32) :
    schedule (keyColumns (inverted rounds keys keys)) rounds =
      (schedule (keyColumns keys) rounds).invert mixColumns := by
  have inner : (List.range' 1 (rounds - 1)).map
        (roundKey (keyColumns (inverted rounds keys keys))) =
      (((List.range' 1 (rounds - 1)).map (roundKey (keyColumns keys))).map
        fun key => -mixColumns.symm key).reverse := by
    apply List.ext_getElem
    · simp
    · intro index left right
      have bound : index < rounds - 1 := by simpa using left
      -- the round keys stand in the opposite order
      have opposite : rounds - (1 + index) = 1 + (rounds - 1 - 1 - index) := by omega
      simp only [List.getElem_map, List.getElem_reverse, List.getElem_range', List.length_map,
        List.length_range', Nat.one_mul]
      rw [roundKey_inverted (by omega), if_pos (by omega), opposite]
      rfl
  rw [schedule, Schedule.invert, inner, roundKey_inverted (Nat.zero_le rounds),
    roundKey_inverted le_rfl, if_neg (by omega), if_neg (by omega), Nat.sub_self, Nat.sub_zero]
  rfl

/-! ## Setting the keys -/

/-- The number of words of a key, after the key size is cut to 16, 24 or 32. -/
def keyLength (keysize : Nat) : Nat := (parameters keysize).1

theorem parameters_eq (keysize : Nat) :
    parameters keysize = (keyLength keysize, keyLength keysize + 6) := by
  rw [keyLength, parameters]
  split
  · rfl
  · split <;> rfl

theorem four_le_keyLength (keysize : Nat) : 4 ≤ keyLength keysize := by
  rw [keyLength, parameters]
  split
  · decide
  · split <;> decide

theorem keyLength_le (keysize : Nat) : keyLength keysize ≤ 8 := by
  rw [keyLength, parameters]
  split
  · decide
  · split <;> decide

/-- The number of rounds that the context of a key holds. -/
def keyRounds (keysize : Nat) : BitVec 32 := BitVec.ofNat 32 (keyLength keysize + 6)

theorem toNat_keyRounds (keysize : Nat) : (keyRounds keysize).toNat = keyLength keysize + 6 := by
  have few := keyLength_le keysize
  rw [keyRounds, BitVec.toNat_ofNat, Nat.mod_eq_of_lt (by omega)]

theorem lastGroup_keyRounds (keysize : Nat) :
    lastGroup (keyRounds keysize) = keyLength keysize + 6 := by
  have few := keyLength_le keysize
  rw [lastGroup, toNat_keyRounds, Nat.mod_eq_of_lt (by omega)]

/-- The round keys of AES for a key. -/
def keySchedule (keysize : Nat) (key : Nat → BitVec 8) : Schedule State :=
  schedule (expandedKey (keyLength keysize) (keyWords key)) (keyLength keysize + 6)

variable {keysize : Nat}

theorem aesSetEncryptKey_eq (least : 16 ≤ keysize) (most : keysize ≤ 32) (ctx : AesCtx)
    (key : Nat → BitVec 8) :
    ∃ keys, aesSetEncryptKey ctx keysize key = some ⟨keyRounds keysize, keys⟩ ∧
      schedule (keyColumns keys) (keyLength keysize + 6) = keySchedule keysize key := by
  obtain ⟨keys, run, words, _⟩ := aesSetKey_eq (four_le_keyLength keysize) ctx.keys key
  refine ⟨keys, ?_, schedule_congr words⟩
  simp only [aesSetEncryptKey, parameters_eq, least, most, run, guard_true, pure_bind, keyRounds]
  rfl

theorem aesSetDecryptKey_eq (least : 16 ≤ keysize) (most : keysize ≤ 32) (ctx : AesCtx)
    (key : Nat → BitVec 8) :
    ∃ keys, aesSetDecryptKey ctx keysize key = some ⟨keyRounds keysize, keys⟩ ∧
      schedule (keyColumns keys) (keyLength keysize + 6) =
        (keySchedule keysize key).invert mixColumns := by
  obtain ⟨keys, run, words⟩ := aesSetEncryptKey_eq least most ctx key
  refine ⟨inverted (keyLength keysize + 6) keys keys, ?_, ?_⟩
  · rw [aesSetDecryptKey, run, ← lastGroup_keyRounds]
    show (aesInvertKey true ⟨keyRounds keysize, keys⟩ ⟨keyRounds keysize, keys⟩) = _
    rw [aesInvertKey, nettleAesInvert_inPlace]
    rfl
  · rw [schedule_inverted, words]

theorem aesSetEncryptKey_eq_none (invalid : ¬ (16 ≤ keysize ∧ keysize ≤ 32)) (ctx : AesCtx)
    (key : Nat → BitVec 8) : aesSetEncryptKey ctx keysize key = none := by
  by_cases least : 16 ≤ keysize
  · have most : ¬ keysize ≤ 32 := fun most => invalid ⟨least, most⟩
    simp [aesSetEncryptKey, least, most]
  · simp [aesSetEncryptKey, least]

/-! ## Messages -/

/-- The message with each block mapped. -/
def onBlocks (f : State → State) (length : Nat) (src : Nat → BitVec 8) : List (BitVec 8) :=
  ((blocksAt src (length / 16)).map f).flatMap bytesOf

theorem aesEncrypt_eq {length : Nat} (whole : length % 16 = 0) (keysize : Nat)
    (keys : Nat → BitVec 32) (src : Nat → BitVec 8) :
    aesEncrypt ⟨keyRounds keysize, keys⟩ length src = some (onBlocks
      (Aes.parts.encrypt (schedule (keyColumns keys) (keyLength keysize + 6))) length src) := by
  have blocks := forBlocks_eq (computes_encrypt.cryptBlock_eq
    (Nat.succ_pos (keyLength keysize + 5)) keys) (length / 16) src
  simp [aesEncrypt, nettleAesEncrypt, whole, onBlocks, toNat_keyRounds, blocks]

theorem aesDecrypt_eq {length : Nat} (whole : length % 16 = 0) (keysize : Nat)
    (keys : Nat → BitVec 32) (src : Nat → BitVec 8) :
    aesDecrypt ⟨keyRounds keysize, keys⟩ length src = some (onBlocks
      (Aes.parts.inverse.encrypt (schedule (keyColumns keys) (keyLength keysize + 6))) length src) := by
  have blocks := forBlocks_eq (computes_decrypt.cryptBlock_eq
    (Nat.succ_pos (keyLength keysize + 5)) keys) (length / 16) src
  simp [aesDecrypt, nettleAesDecrypt, whole, onBlocks, toNat_keyRounds, blocks]

/-- Setting the key and encrypting. -/
def encryptWith (ctx : AesCtx) (keysize : Nat) (key : Nat → BitVec 8) (length : Nat)
    (src : Nat → BitVec 8) : Option (List (BitVec 8)) := do
  aesEncrypt (← aesSetEncryptKey ctx keysize key) length src

/-- Setting the key and decrypting. -/
def decryptWith (ctx : AesCtx) (keysize : Nat) (key : Nat → BitVec 8) (length : Nat)
    (src : Nat → BitVec 8) : Option (List (BitVec 8)) := do
  aesDecrypt (← aesSetDecryptKey ctx keysize key) length src

theorem encryptWith_eq (ctx : AesCtx) (key : Nat → BitVec 8) (least : 16 ≤ keysize)
    (most : keysize ≤ 32) {length : Nat} (whole : length % 16 = 0) (src : Nat → BitVec 8) :
    encryptWith ctx keysize key length src =
      some (onBlocks (Aes.cipher (keyLength keysize) (keyWords key)) length src) := by
  obtain ⟨keys, run, words⟩ := aesSetEncryptKey_eq least most ctx key
  have crypted := aesEncrypt_eq whole keysize keys src
  rw [words] at crypted
  rw [encryptWith, run]
  exact crypted

theorem decryptWith_eq (ctx : AesCtx) (key : Nat → BitVec 8) (least : 16 ≤ keysize)
    (most : keysize ≤ 32) {length : Nat} (whole : length % 16 = 0) (src : Nat → BitVec 8) :
    decryptWith ctx keysize key length src =
      some (onBlocks (Aes.cipher (keyLength keysize) (keyWords key)).symm length src) := by
  obtain ⟨keys, run, words⟩ := aesSetDecryptKey_eq least most ctx key
  have crypted := aesDecrypt_eq whole keysize keys src
  rw [words] at crypted
  rw [decryptWith, run]
  exact crypted

/-- For the key sizes from 16 to 32 and whole blocks the functions compute AES and its inverse, and
for all others they end the program. -/
theorem computes_aes (ctx : AesCtx) (keysize : Nat) (key : Nat → BitVec 8) (length : Nat)
    (src : Nat → BitVec 8) :
    encryptWith ctx keysize key length src =
        (if 16 ≤ keysize ∧ keysize ≤ 32 ∧ length % 16 = 0 then
          some (onBlocks (Aes.cipher (keyLength keysize) (keyWords key)) length src)
        else none) ∧
      decryptWith ctx keysize key length src =
        if 16 ≤ keysize ∧ keysize ≤ 32 ∧ length % 16 = 0 then
          some (onBlocks (Aes.cipher (keyLength keysize) (keyWords key)).symm length src)
        else none := by
  by_cases valid : 16 ≤ keysize ∧ keysize ≤ 32
  · obtain ⟨least, most⟩ := valid
    by_cases whole : length % 16 = 0
    · rw [if_pos ⟨least, most, whole⟩, if_pos ⟨least, most, whole⟩]
      exact ⟨encryptWith_eq ctx key least most whole src, decryptWith_eq ctx key least most whole src⟩
    · obtain ⟨keys, run, _⟩ := aesSetEncryptKey_eq least most ctx key
      obtain ⟨inverse, inverted, _⟩ := aesSetDecryptKey_eq least most ctx key
      simp [encryptWith, decryptWith, run, inverted, aesEncrypt, aesDecrypt, whole]
  · have outside : ¬ (16 ≤ keysize ∧ keysize ≤ 32 ∧ length % 16 = 0) :=
      fun all => valid ⟨all.1, all.2.1⟩
    have stopped := aesSetEncryptKey_eq_none valid ctx key
    rw [if_neg outside, if_neg outside]
    simp [encryptWith, decryptWith, aesSetDecryptKey, stopped]

/-! ## Round trips -/

theorem length_onBlocks (f : State → State) (length : Nat) (src : Nat → BitVec 8) :
    (onBlocks f length src).length = 16 * (length / 16) := by
  rw [onBlocks, length_flatMap_bytesOf, List.length_map, blocksAt, List.length_map,
    List.length_range]

theorem onBlocks_onBlocks {f g : State → State} (undone : ∀ state, g (f state) = state)
    {message : List (BitVec 8)} (whole : message.length % 16 = 0) :
    onBlocks g message.length (memory (onBlocks f message.length (memory message))) = message := by
  have count : ((blocksAt (memory message) (message.length / 16)).map f).length =
      message.length / 16 := by
    rw [List.length_map, blocksAt, List.length_map, List.length_range]
  have read : blocksAt (memory (onBlocks f message.length (memory message))) (message.length / 16) =
      (blocksAt (memory message) (message.length / 16)).map f := by
    have back := blocksAt_memory ((blocksAt (memory message) (message.length / 16)).map f)
    rwa [count] at back
  have cancel : g ∘ f = id := funext undone
  have total : 16 * (message.length / 16) = message.length :=
    Nat.mul_div_cancel' (Nat.dvd_of_mod_eq_zero whole)
  rw [onBlocks, read, List.map_map, cancel, List.map_id, flatMap_blocksAt, total, map_memory]

/-- What is encrypted is decrypted to itself, and the other way round, whatever the contexts held
before. -/
theorem round_trips (least : 16 ≤ keysize) (most : keysize ≤ 32) (first second : AesCtx)
    (key : Nat → BitVec 8) {message : List (BitVec 8)} (whole : message.length % 16 = 0) :
    ((encryptWith first keysize key message.length (memory message)).bind fun encrypted =>
        decryptWith second keysize key encrypted.length (memory encrypted)) = some message ∧
      ((decryptWith first keysize key message.length (memory message)).bind fun decrypted =>
        encryptWith second keysize key decrypted.length (memory decrypted)) = some message := by
  have total : 16 * (message.length / 16) = message.length :=
    Nat.mul_div_cancel' (Nat.dvd_of_mod_eq_zero whole)
  constructor
  · rw [encryptWith_eq first key least most whole, Option.bind_some, length_onBlocks, total,
      decryptWith_eq second key least most whole, onBlocks_onBlocks (Equiv.symm_apply_apply _) whole]
  · rw [decryptWith_eq first key least most whole, Option.bind_some, length_onBlocks, total,
      encryptWith_eq second key least most whole, onBlocks_onBlocks (Equiv.apply_symm_apply _) whole]

/-- Two blocks of zeros under a key of 24 bytes. -/
theorem round_trips_zeros :
    ((encryptWith ⟨0, fun _ => 0⟩ 24 (BitVec.ofNat 8) 32 (memory (List.replicate 32 0))).bind
        fun encrypted => decryptWith ⟨0, fun _ => 0⟩ 24 (BitVec.ofNat 8) encrypted.length
          (memory encrypted)) = some (List.replicate 32 0) :=
  (@round_trips 24 (by decide) (by decide) ⟨0, fun _ => 0⟩ ⟨0, fun _ => 0⟩ (BitVec.ofNat 8)
    (List.replicate 32 0) rfl).1

/-! ## Inversion in place -/

end IbexWb.NettleAes
