import Workbench.Lib.JsonDumps

/-!
# SHA-256

`hashlib.sha256(...).hexdigest()` of an ASCII text: the padding, the message schedule and the rounds on numbers below
`2 ^ 32`. The proofs take the digest as a parameter; this is the one that the code runs with.
-/

namespace Workbench.Lib.Sha256

def modulus : Nat := 4294967296

def rounds : List Nat :=
  [0x428a2f98, 0x71374491, 0xb5c0fbcf, 0xe9b5dba5, 0x3956c25b, 0x59f111f1, 0x923f82a4, 0xab1c5ed5, 0xd807aa98,
    0x12835b01, 0x243185be, 0x550c7dc3, 0x72be5d74, 0x80deb1fe, 0x9bdc06a7, 0xc19bf174, 0xe49b69c1, 0xefbe4786,
    0x0fc19dc6, 0x240ca1cc, 0x2de92c6f, 0x4a7484aa, 0x5cb0a9dc, 0x76f988da, 0x983e5152, 0xa831c66d, 0xb00327c8,
    0xbf597fc7, 0xc6e00bf3, 0xd5a79147, 0x06ca6351, 0x14292967, 0x27b70a85, 0x2e1b2138, 0x4d2c6dfc, 0x53380d13,
    0x650a7354, 0x766a0abb, 0x81c2c92e, 0x92722c85, 0xa2bfe8a1, 0xa81a664b, 0xc24b8b70, 0xc76c51a3, 0xd192e819,
    0xd6990624, 0xf40e3585, 0x106aa070, 0x19a4c116, 0x1e376c08, 0x2748774c, 0x34b0bcb5, 0x391c0cb3, 0x4ed8aa4a,
    0x5b9cca4f, 0x682e6ff3, 0x748f82ee, 0x78a5636f, 0x84c87814, 0x8cc70208, 0x90befffa, 0xa4506ceb, 0xbef9a3f7,
    0xc67178f2]

def start : List Nat :=
  [0x6a09e667, 0xbb67ae85, 0x3c6ef372, 0xa54ff53a, 0x510e527f, 0x9b05688c, 0x1f83d9ab, 0x5be0cd19]

def rotate (n x : Nat) : Nat := (x >>> n ||| x <<< (32 - n)) % modulus

def nextWord (ws : List Nat) : Nat :=
  let a := ws.getD 14 0
  let b := ws.getD 1 0
  let s0 := rotate 7 a ^^^ rotate 18 a ^^^ (a >>> 3)
  let s1 := rotate 17 b ^^^ rotate 19 b ^^^ (b >>> 10)
  (ws.getD 15 0 + s0 + ws.getD 6 0 + s1) % modulus

/-- The schedule, `n` words longer, in reverse order. -/
def schedule : Nat → List Nat → List Nat
  | 0, ws => ws
  | n + 1, ws => schedule n (nextWord ws :: ws)

def round (h : List Nat) (k w : Nat) : List Nat :=
  match h with
  | [a, b, c, d, e, f, g, i] =>
    let s1 := rotate 6 e ^^^ rotate 11 e ^^^ rotate 25 e
    let ch := (e &&& f) ^^^ ((modulus - 1 - e) &&& g)
    let t1 := i + s1 + ch + k + w
    let s0 := rotate 2 a ^^^ rotate 13 a ^^^ rotate 22 a
    let maj := (a &&& b) ^^^ (a &&& c) ^^^ (b &&& c)
    [(t1 + s0 + maj) % modulus, a, b, c, (d + t1) % modulus, e, f, g]
  | _ => h

def compress (h block : List Nat) : List Nat :=
  let ws := (schedule 48 block.reverse).reverse
  List.zipWith (fun x y => (x + y) % modulus) h ((rounds.zip ws).foldl (fun h kw => round h kw.1 kw.2) h)

/-- `n` bytes of a number, the most significant first. -/
def bytesOf : Nat → Nat → List Nat
  | 0, _ => []
  | n + 1, x => bytesOf n (x / 256) ++ [x % 256]

def padded (message : List Nat) : List Nat :=
  message ++ 0x80 :: List.replicate ((119 - message.length % 64) % 64) 0 ++ bytesOf 8 (8 * message.length)

def words : List Nat → List Nat
  | a :: b :: c :: d :: bytes => (((a * 256 + b) * 256 + c) * 256 + d) :: words bytes
  | _ => []

def digestBlocks : Nat → List Nat → List Nat → List Nat
  | 0, h, _ => h
  | n + 1, h, ws => digestBlocks n (compress h (ws.take 16)) (ws.drop 16)

/-- `hashlib.sha256(text.encode()).hexdigest()`, of an ASCII text. -/
def hexdigest (cs : List Char) : Text :=
  let ws := words (padded (cs.map Char.toNat))
  ofChars ((digestBlocks (ws.length / 16) start ws).flatMap fun w => (bytesOf 4 w).flatMap fun b =>
    [Nat.digitChar (b / 16), Nat.digitChar (b % 16)])

example : hexdigest "abc".toList =
    Text.of "ba7816bf8f01cfea414140de5dae2223b00361a396177a9cb410ff61f20015ad" := by decide +kernel

end Workbench.Lib.Sha256
