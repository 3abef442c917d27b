import IbexWb.Binary.ByteTable
import IbexWb.Sw.NettleTables
import Mathlib.Logic.Function.Basic

/-! # `nettle-aes.c`

A pointer is the memory from its address on, as a function of the index.  `assert_beebs` ends the
program, `rcon` has ten elements, and a loop may go on for ever, so the functions return an
`Option`.
-/

namespace IbexWb.NettleAes

open Binary

/-! ## Macros -/

def leReadUint32 (p : Nat → BitVec 8) : BitVec 32 :=
  (p 3).setWidth 32 <<< 24 ||| (p 2).setWidth 32 <<< 16 ||| (p 1).setWidth 32 <<< 8 |||
    (p 0).setWidth 32

/-- The four bytes that `LE_WRITE_UINT32` writes. -/
def leWriteUint32 (i : BitVec 32) : List (BitVec 8) :=
  [(i &&& 0xff).setWidth 8, (i >>> 8 &&& 0xff).setWidth 8, (i >>> 16 &&& 0xff).setWidth 8,
    (i >>> 24 &&& 0xff).setWidth 8]

-- `(-(n)&31)` is the distance to the next multiple of 32
def rotl32 (n : Nat) (x : BitVec 32) : BitVec 32 := x <<< n ||| x >>> ((32 - n % 32) % 32)

def b0 (x : BitVec 32) : BitVec 8 := (x &&& 0xff).setWidth 8

def b1 (x : BitVec 32) : BitVec 8 := (x >>> 8 &&& 0xff).setWidth 8

def b2 (x : BitVec 32) : BitVec 8 := (x >>> 16 &&& 0xff).setWidth 8

def b3 (x : BitVec 32) : BitVec 8 := (x >>> 24 &&& 0xff).setWidth 8

def subbyte (x : BitVec 32) (box : Vector (BitVec 8) 256) : BitVec 32 :=
  (element box (b0 x)).setWidth 32 ||| (element box (b1 x)).setWidth 32 <<< 8 |||
    (element box (b2 x)).setWidth 32 <<< 16 ||| (element box (b3 x)).setWidth 32 <<< 24

def aesRound (T : AesTable) (w0 w1 w2 w3 k : BitVec 32) : BitVec 32 :=
  element T.table0 (b0 w0) ^^^ element T.table1 (b1 w1) ^^^ element T.table2 (b2 w2) ^^^
    element T.table3 (b3 w3) ^^^ k

def aesFinalRound (T : AesTable) (w0 w1 w2 w3 k : BitVec 32) : BitVec 32 :=
  ((element T.sbox (b0 w0)).setWidth 32 ||| (element T.sbox (b1 w1)).setWidth 32 <<< 8 |||
    (element T.sbox (b2 w2)).setWidth 32 <<< 16 ||| (element T.sbox (b3 w3)).setWidth 32 <<< 24) ^^^ k

/-! ## Keys -/

structure AesCtx where
  rounds : BitVec 32
  keys : Nat → BitVec 32

def rcon : List (BitVec 8) := [0x01, 0x02, 0x04, 0x08, 0x10, 0x20, 0x40, 0x80, 0x1b, 0x36]

/-- The subkeys and the index of `*rp` in `rcon`. -/
structure Expansion where
  subkeys : Nat → BitVec 32
  rp : Nat

/-- One pass of the second loop of `_aes_set_key`. -/
def expand (nk : Nat) (state : Expansion) (i : Nat) : Option Expansion := do
  let t := state.subkeys (i - 1)
  let (t, rp) ←
    if i % nk = 0 then do
      let constant ← rcon[state.rp]?
      pure (subbyte (rotl32 24 t) sbox ^^^ constant.setWidth 32, state.rp + 1)
    else if 6 < nk ∧ i % nk = 4 then pure (subbyte t sbox, state.rp)
    else pure (t, state.rp)
  pure ⟨Function.update state.subkeys i (state.subkeys (i - nk) ^^^ t), rp⟩

/-- `_aes_set_key` -/
def aesSetKey (nr nk : Nat) (subkeys : Nat → BitVec 32) (key : Nat → BitVec 8) :
    Option (Nat → BitVec 32) := do
  guard (nk ≠ 0)
  let lastkey := 16 / 4 * (nr + 1)
  let subkeys := (List.range nk).foldl (fun subkeys i =>
    Function.update subkeys i (leReadUint32 fun offset => key (i * 4 + offset))) subkeys
  let state ← (List.range' nk (lastkey - nk)).foldlM (expand nk) ⟨subkeys, 0⟩
  pure state.subkeys

/-- `nk` and `nr` for a key size. -/
def parameters (keysize : Nat) : Nat × Nat :=
  if keysize = 32 then (8, 14) else if 24 ≤ keysize then (6, 12) else (4, 10)

def aesSetEncryptKey (ctx : AesCtx) (keysize : Nat) (key : Nat → BitVec 8) : Option AesCtx := do
  guard (16 ≤ keysize)
  guard (keysize ≤ 32)
  let (nk, nr) := parameters keysize
  let keys ← aesSetKey nr nk ctx.keys key
  pure ⟨BitVec.ofNat 32 nr, keys⟩

def mixColumn (T : Vector (BitVec 32) 256) (key : BitVec 32) : BitVec 32 :=
  element T (b0 key) ^^^ rotl32 8 (element T (b0 (key >>> 8))) ^^^
    rotl32 16 (element T (b0 (key >>> 8 >>> 8))) ^^^
    rotl32 24 (element T (b0 (key >>> 8 >>> 8 >>> 8)))

def swap (a b : Nat) (keys : Nat → BitVec 32) : Nat → BitVec 32 :=
  Function.update (Function.update keys a (keys b)) b (keys a)

/-- `for (i = 0, j = rounds * 4; i < j; i += 4, j -= 4)` -/
def reverseInPlace : Nat → BitVec 32 → BitVec 32 → (Nat → BitVec 32) → Option (Nat → BitVec 32)
  | 0, _, _, _ => none
  | fuel + 1, i, j, keys =>
    if i < j then
      reverseInPlace fuel (i + 4) (j - 4) ((List.range 4).foldl (fun keys k =>
        swap (i + BitVec.ofNat 32 k).toNat (j + BitVec.ofNat 32 k).toNat keys) keys)
    else some keys

/-- `for (i = 0; i <= rounds * 4; i += 4)`, where `last` is `rounds * 4` -/
def reverseCopy (last : BitVec 32) (src : Nat → BitVec 32) :
    Nat → BitVec 32 → (Nat → BitVec 32) → Option (Nat → BitVec 32)
  | 0, _, _ => none
  | fuel + 1, i, dst =>
    if i ≤ last then
      reverseCopy last src fuel (i + 4) ((List.range 4).foldl (fun dst k =>
        Function.update dst (i + BitVec.ofNat 32 k).toNat
          (src (last - i + BitVec.ofNat 32 k).toNat)) dst)
    else some dst

/-- `_nettle_aes_invert`; `same` tells whether `src == dst`. -/
def nettleAesInvert (rounds : BitVec 32) (same : Bool) (dst src : Nat → BitVec 32) :
    Option (Nat → BitVec 32) :=
  let last := rounds * 4
  -- neither loop that ends makes more than this many tests
  let fuel := last.toNat / 4 + 2
  let reversed :=
    if same then reverseInPlace fuel 0 last dst else reverseCopy last src fuel 0 dst
  reversed.map fun dst => (List.range' 4 ((4 * rounds).toNat - 4)).foldl (fun dst i =>
    Function.update dst i (mixColumn mtable (dst i))) dst

def aesInvertKey (same : Bool) (dst src : AesCtx) : Option AesCtx := do
  let keys ← nettleAesInvert src.rounds same dst.keys src.keys
  pure ⟨src.rounds, keys⟩

def aesSetDecryptKey (ctx : AesCtx) (keysize : Nat) (key : Nat → BitVec 8) : Option AesCtx := do
  let ctx ← aesSetEncryptKey ctx keysize key
  aesInvertKey true ctx ctx

/-! ## Blocks -/

structure Words where
  w0 : BitVec 32
  w1 : BitVec 32
  w2 : BitVec 32
  w3 : BitVec 32

/-- `AES_ROUND` or `AES_FINAL_ROUND` for one table. -/
abbrev Lookup := BitVec 32 → BitVec 32 → BitVec 32 → BitVec 32 → BitVec 32 → BitVec 32

/-- The values `t0` to `t3` of encryption. -/
def ascending (lookup : Lookup) (keys : Nat → BitVec 32) (w : Words) (i : Nat) : Words where
  w0 := lookup w.w0 w.w1 w.w2 w.w3 (keys (4 * i))
  w1 := lookup w.w1 w.w2 w.w3 w.w0 (keys (4 * i + 1))
  w2 := lookup w.w2 w.w3 w.w0 w.w1 (keys (4 * i + 2))
  w3 := lookup w.w3 w.w0 w.w1 w.w2 (keys (4 * i + 3))

/-- The values `t0` to `t3` of decryption. -/
def descending (lookup : Lookup) (keys : Nat → BitVec 32) (w : Words) (i : Nat) : Words where
  w0 := lookup w.w0 w.w3 w.w2 w.w1 (keys (4 * i))
  w1 := lookup w.w1 w.w0 w.w3 w.w2 (keys (4 * i + 1))
  w2 := lookup w.w2 w.w1 w.w0 w.w3 (keys (4 * i + 2))
  w3 := lookup w.w3 w.w2 w.w1 w.w0 (keys (4 * i + 3))

def readBlock (keys : Nat → BitVec 32) (src : Nat → BitVec 8) : Words where
  w0 := leReadUint32 src ^^^ keys 0
  w1 := leReadUint32 (fun offset => src (4 + offset)) ^^^ keys 1
  w2 := leReadUint32 (fun offset => src (8 + offset)) ^^^ keys 2
  w3 := leReadUint32 (fun offset => src (12 + offset)) ^^^ keys 3

def writeBlock (t : Words) : List (BitVec 8) :=
  leWriteUint32 t.w0 ++ leWriteUint32 t.w1 ++ leWriteUint32 t.w2 ++ leWriteUint32 t.w3

/-- One block of `_nettle_aes_encrypt` or `_nettle_aes_decrypt`, which differ in `order`.  The
contexts have few rounds, and `4 * i` does not wrap. -/
def cryptBlock (T : AesTable) (order : Lookup → (Nat → BitVec 32) → Words → Nat → Words)
    (rounds : Nat) (keys : Nat → BitVec 32) (src : Nat → BitVec 8) : List (BitVec 8) :=
  let w := (List.range' 1 (rounds - 1)).foldl (order (aesRound T) keys) (readBlock keys src)
  -- `i` is what the loop leaves in it
  writeBlock (order (aesFinalRound T) keys w (1 + (rounds - 1)))

/-- `FOR_BLOCKS`, for `count` blocks of 16 bytes. -/
def forBlocks (block : (Nat → BitVec 8) → List (BitVec 8)) :
    Nat → (Nat → BitVec 8) → List (BitVec 8)
  | 0, _ => []
  | count + 1, src => block src ++ forBlocks block count fun offset => src (16 + offset)

/-- The bytes written to `dst`. -/
def nettleAesEncrypt (rounds : Nat) (keys : Nat → BitVec 32) (T : AesTable) (length : Nat)
    (src : Nat → BitVec 8) : Option (List (BitVec 8)) := do
  guard (length % 16 = 0)
  pure (forBlocks (cryptBlock T ascending rounds keys) (length / 16) src)

def nettleAesDecrypt (rounds : Nat) (keys : Nat → BitVec 32) (T : AesTable) (length : Nat)
    (src : Nat → BitVec 8) : Option (List (BitVec 8)) := do
  guard (length % 16 = 0)
  pure (forBlocks (cryptBlock T descending rounds keys) (length / 16) src)

def aesEncrypt (ctx : AesCtx) (length : Nat) (src : Nat → BitVec 8) : Option (List (BitVec 8)) := do
  guard (length % 16 = 0)
  nettleAesEncrypt ctx.rounds.toNat ctx.keys aesEncryptTable length src

def aesDecrypt (ctx : AesCtx) (length : Nat) (src : Nat → BitVec 8) : Option (List (BitVec 8)) := do
  guard (length % 16 = 0)
  nettleAesDecrypt ctx.rounds.toNat ctx.keys aesDecryptTable length src

end IbexWb.NettleAes
