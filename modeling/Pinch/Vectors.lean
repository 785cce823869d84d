import Pinch.Utf

/-! The three identities of the test data: Ed25519 key, X25519 key and address. -/

namespace Pinch

def vectorKey : Bytes :=
  [76, 181, 171, 246, 173, 121, 251, 245, 171, 188, 202, 252, 194, 105, 216, 92,
   210, 101, 30, 212, 184, 133, 181, 134, 159, 36, 26, 237, 240, 165, 186, 41]

def vectorX25519 : Bytes :=
  [217, 47, 94, 234, 162, 79, 212, 230, 98, 33, 199, 112, 247, 4, 165, 226,
   99, 154, 71, 107, 171, 130, 207, 236, 64, 189, 40, 116, 171, 235, 72, 31]

def vectorAddress : String :=
  "pinch:anSpcKpdMpR5GgdWktTxJHrow4AapjhmPGBfj3F1qr3HEbMcn@test.relay.example.com"

def otherKey : Bytes :=
  [231, 52, 234, 108, 43, 98, 87, 222, 114, 53, 94, 71, 42, 160, 90, 76,
   72, 126, 107, 70, 60, 2, 158, 211, 6, 223, 47, 1, 181, 99, 107, 88]

def otherX25519 : Bytes :=
  [85, 34, 145, 240, 44, 147, 23, 81, 150, 51, 2, 19, 2, 208, 247, 186,
   57, 177, 207, 50, 49, 14, 35, 238, 122, 166, 164, 49, 42, 228, 160, 39]

def thirdKey : Bytes :=
  [255, 87, 87, 93, 199, 175, 139, 252, 77, 8, 55, 204, 28, 226, 1, 123,
   104, 106, 136, 20, 93, 197, 87, 154, 149, 142, 52, 98, 254, 154, 144, 142]

def thirdX25519 : Bytes :=
  [221, 220, 140, 129, 237, 92, 125, 66, 130, 25, 90, 174, 178, 65, 149, 145,
   188, 182, 92, 175, 211, 235, 223, 12, 155, 226, 29, 225, 245, 159, 18, 97]

def thirdAddress : String :=
  "pinch:2wTMAXNcBzkfwvmYVyWVNpLkMdTCzdmYrAZkREHx8EVaL6L3ur@test.relay.example.com"

def vectorDigest : Bytes :=
  [74, 103, 51, 11, 128, 61, 92, 136, 117, 122, 251, 147, 40, 97, 83, 68,
   168, 156, 73, 131, 154, 7, 241, 247, 104, 135, 173, 98, 208, 106, 31, 87]

/-- SHA-256 as it acts on the first identity's key. -/
def vectorSha256 (_publicKey : Bytes) : Bytes := vectorDigest

/-- The private halves of the first two identities. -/
def vectorPrivateKey : Bytes :=
  List.replicate 31 0 ++ 1 :: vectorKey

def vectorX25519Private : Bytes :=
  [240, 104, 226, 247, 204, 195, 238, 226, 32, 6, 94, 29, 201, 55, 211, 77,
   84, 142, 197, 155, 230, 72, 143, 234, 90, 225, 57, 126, 99, 248, 28, 82]

def otherPrivateKey : Bytes :=
  [170, 170, 170, 170, 170, 170, 170, 170, 170, 170, 170, 170, 170, 170, 170, 170,
   170, 170, 170, 170, 170, 170, 170, 170, 170, 170, 170, 170, 170, 170, 170, 170,
   231, 52, 234, 108, 43, 98, 87, 222, 114, 53, 94, 71, 42, 160, 90, 76,
   72, 126, 107, 70, 60, 2, 158, 211, 6, 223, 47, 1, 181, 99, 107, 88]

def otherX25519Private : Bytes :=
  [0, 223, 141, 217, 233, 234, 199, 96, 161, 182, 140, 21, 101, 56, 139, 30,
   147, 4, 155, 21, 91, 170, 136, 8, 207, 75, 73, 133, 248, 102, 91, 104]

end Pinch
