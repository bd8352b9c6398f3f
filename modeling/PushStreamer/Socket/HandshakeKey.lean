import PushStreamer.Socket.Http

/-!
# The key of a handshake

What a server makes of the key of a request: SHA-1 over the key and a fixed text,
in base64 (`sha1/sha1.hpp`, `base64/base64.hpp`, `process_handshake_key`).
-/

namespace PushStreamer.Http

open Endpoint (Bytes)

-- ---------------------------------------------------------------------------
-- `sha1::calc`
-- ---------------------------------------------------------------------------

namespace Sha1Calc

def rol (value steps : UInt32) : UInt32 := (value <<< steps) ||| (value >>> (32 - steps))

/-- The words `a` to `e` of `innerHash`, and `result`. -/
structure Words where
  a : UInt32
  b : UInt32
  c : UInt32
  d : UInt32
  e : UInt32
deriving DecidableEq

/-- `sha1macro`. -/
def sha1Macro (func val : UInt32) (w : List UInt32) (round : ℕ) (x : Words) : Words :=
  let t := rol x.a 5 + func + x.e + val + w.getD round 0
  { a := t, b := x.a, c := rol x.b 30, d := x.c, e := x.d }

/-- The line that the rounds from 16 on begin with. -/
def extendW (w : List UInt32) (round : ℕ) : List UInt32 :=
  w.set round (rol (w.getD (round - 3) 0 ^^^ w.getD (round - 8) 0 ^^^ w.getD (round - 14) 0 ^^^
    w.getD (round - 16) 0) 1)

/-- The functions and constants of the loops of `innerHash`. -/
def loop1 (x : Words) : UInt32 := (x.b &&& x.c) ||| (~~~x.b &&& x.d)

def loop2 (x : Words) : UInt32 := x.b ^^^ x.c ^^^ x.d

def loop3 (x : Words) : UInt32 := (x.b &&& x.c) ||| (x.b &&& x.d) ||| (x.c &&& x.d)

/-- A loop of `innerHash` over `n` rounds, after the first one. -/
def rounds (func : Words → UInt32) (val : UInt32) (start n : ℕ) (y : Words × List UInt32) :
    Words × List UInt32 :=
  (List.range' start n).foldl (fun y round =>
    let w := extendW y.2 round
    (sha1Macro (func y.1) val w round y.1, w)) y

def innerHash (result : Words) (w : List UInt32) : Words × List UInt32 :=
  let y := ((List.range 16).foldl (fun x round => sha1Macro (loop1 x) 0x5a827999 w round x) result,
    w)
  let y := rounds loop1 0x5a827999 16 4 y
  let y := rounds loop2 0x6ed9eba1 20 20 y
  let y := rounds loop3 0x8f1bbcdc 40 20 y
  let y := rounds loop2 0xca62c1d6 60 20 y
  (⟨result.a + y.1.a, result.b + y.1.b, result.c + y.1.c, result.d + y.1.d, result.e + y.1.e⟩, y.2)

/-- `clearWBuffert`. -/
def clearWBuffert (w : List UInt32) : List UInt32 :=
  (List.range 16).foldl (fun w pos => w.set pos 0) w

/-- The words of a full block. -/
def fillBlock (sarray : Bytes) (currentBlock : ℕ) (w : List UInt32) : List UInt32 :=
  (List.range 16).foldl (fun w roundPos =>
    let at_ (i : ℕ) : UInt32 := (sarray.getD (currentBlock + 4 * roundPos + i) 0).toUInt32
    w.set roundPos (at_ 3 ||| (at_ 2 <<< 8) ||| (at_ 1 <<< 16) ||| (at_ 0 <<< 24))) w

/-- `w[i >> 2] |= b << ((3 - (i & 3)) << 3)`. -/
def orByte (w : List UInt32) (i : ℕ) (b : UInt8) : List UInt32 :=
  w.set (i / 4) (w.getD (i / 4) 0 ||| (b.toUInt32 <<< UInt32.ofNat ((3 - i % 4) * 8)))

/-- The loop over the full blocks. -/
def fullBlocks (sarray : Bytes) (y : Words × List UInt32) : Words × List UInt32 :=
  (List.range (sarray.length / 64)).foldl (fun y j =>
    innerHash y.1 (fillBlock sarray (64 * j) y.2)) y

/-- The bytes behind the full blocks, and the bit behind them. -/
def lastBlock (sarray : Bytes) (w : List UInt32) : List UInt32 :=
  let currentBlock := sarray.length / 64 * 64
  let rest := sarray.drop currentBlock
  orByte ((List.range rest.length).foldl (fun w i => orByte w i (rest.getD i 0)) (clearWBuffert w))
    rest.length 0x80

/-- `hash[hashByte]`. -/
def hashByte (result : Words) (i : ℕ) : UInt8 :=
  let word := [result.a, result.b, result.c, result.d, result.e].getD (i / 4) 0
  (word >>> UInt32.ofNat ((3 - i % 4) * 8)).toUInt8

/-- `sha1::calc`; what `w` holds at first is not read. -/
def sha1Calc (sarray : Bytes) : Bytes :=
  let result : Words := ⟨0x67452301, 0xefcdab89, 0x98badcfe, 0x10325476, 0xc3d2e1f0⟩
  let y := fullBlocks sarray (result, List.replicate 80 0)
  let w := lastBlock sarray y.2
  let y := if 56 ≤ sarray.length % 64 then
      let y := innerHash y.1 w
      (y.1, clearWBuffert y.2)
    else (y.1, w)
  let y := innerHash y.1 (y.2.set 15 (UInt32.ofNat (sarray.length * 8)))
  (List.range 20).map (hashByte y.1)

end Sha1Calc

-- ---------------------------------------------------------------------------
-- base64
-- ---------------------------------------------------------------------------

def base64Chars : Bytes :=
  ascii "ABCDEFGHIJKLMNOPQRSTUVWXYZabcdefghijklmnopqrstuvwxyz0123456789+/"

/-- `char_array_4` for three bytes. -/
def charArray4 (a b c : UInt8) : List UInt8 :=
  [(a &&& 0xfc) >>> 2, ((a &&& 0x03) <<< 4) + ((b &&& 0xf0) >>> 4),
    ((b &&& 0x0f) <<< 2) + ((c &&& 0xc0) >>> 6), c &&& 0x3f]

/-- `base64_chars[i]`. -/
def base64Char (i : UInt8) : UInt8 := base64Chars.getD i.toNat 0

/-- `base64_encode`. -/
def base64Encode : Bytes → Bytes
  | a :: b :: c :: rest => (charArray4 a b c).map base64Char ++ base64Encode rest
  | [a, b] => ((charArray4 a b 0).take 3).map base64Char ++ ascii "="
  | [a] => ((charArray4 a 0 0).take 2).map base64Char ++ ascii "=="
  | [] => []

-- ---------------------------------------------------------------------------
-- The key
-- ---------------------------------------------------------------------------

/-- `handshake_guid`. -/
def handshakeGuid : Bytes := ascii "258EAFA5-E914-47DA-95CA-C5AB0DC85B11"

/-- `process_handshake_key`. -/
def processHandshakeKey (key : Bytes) : Bytes :=
  base64Encode (Sha1Calc.sha1Calc (key ++ handshakeGuid))

example : processHandshakeKey (ascii "dGhlIHNhbXBsZSBub25jZQ==") =
    ascii "s3pPLMBiTxaQ9kYGzzhZRbK+xOo=" := by
  decide +kernel

end PushStreamer.Http
