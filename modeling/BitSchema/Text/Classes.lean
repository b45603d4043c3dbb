/-!
# Classes of characters

Which characters above ASCII stand in names and words, can be shown, have a case or belong to the letters around them,
after Unicode 14.  Characters that are alike in all of this are of one class, named by a letter, and the classes are
given as one row of runs (`classRow`).  Inside ASCII all of this is plain.

A name starts with a letter or an underscore and goes on with letters, underscores, digits and marks.  A word is made of
letters, marks that count as letters, and numeric characters.  Controls, format characters, line and paragraph
separators, spaces other than the plain one, private characters and code points without a character cannot be shown.
-/

namespace BitSchema.Text

/-- The runs of characters of one class, from the first one above ASCII on: the length of the run, unless it is one, and
the class. -/
def classRow : List String := [
  "33a7djdf2dkdj2d2gjfdcjgfd3gd23fd31fd195fb4f4b208fb27f9l7i2l4j12i14j5l7jiji17j69co42c4fij2f2ap3fdf4a2jfc3fafa20fa83",
  "fd139fd5c2j166fa38f2ai5dj41f2d2a3da45cdcd2cd2cdc8a27b4a4bdj11a6k10d11cdk3d32bi10b21c10h4d2bc99bdb7ckd6c2i2cd4c2b10",
  "h3b2db14dakbc30b27c2a89b11cb14a10h33b9c2i4di2ac2d22b4ci9ci3ci5c2a15da25b3c2ada11b5a24bj6ba2k6a8c41bi24ck32ce54bcec",
  "b3e8c4ec2eb7c10b2c2d10hdi15bc2ea8b2a2b2a22ba7bab3a4b2acb3e4c2a2e2a2ecb8ae4a2ba3b2c2a10h2b2d6g2dbdc2a2cea6b4a2b2a22",
  "ba7ba2ba2ba2b2aca3e2c4a2c2a3c3ac7a4bab7a10h2c3bcd10a2cea9ba3ba22ba7ba2ba5b2acb3e5ca2cea2ec2ab15a2b2c2a10h2d7ab6cac",
  "2ea8b2a2b2a22ba7ba2ba5b2acbece4c2a2e2a2ec7a2ce4a2ba3b2c2a10hdb6g10acba6b3a3ba4b3a2baba2b3a2b3a3b3a12b4a2ec2e3a3ea3",
  "ec2ab6ae14a10h3g8d5ac3ec8ba3ba23ba16b2acb3c4ea3ca4c7a2ca3b2ab2a2b2c2a10h7ad7gdbc2ed8ba3ba23ba10ba5b2acbec5eac2ea2e",
  "2c7a2e6a2ba2b2c2a10ha2b13a2c2e9ba3ba41b2cb3e4ca3ea3ecbd4a3be7g3b2c2a10h9gd6bac2ea18b3a24ba9bab2a7b3ac4a3e3caca8e6a",
  "10h2a2ed12a48bcbh7c4ad6bi8cd10h2d37a2baba5ba24baba10bcbh9cb2a5baia6c2a10h2a4b32ab23d2c6d10h10gdcdcdc4d2e8ba36b4a14",
  "ce5cd2c5b11ca36ca8dc6da13d37a43b2e4ce6ce2c2e2cb10h6d6b2e2c4b3cb3e2b7e3b4c13bc2e2c6ecbe10h3ec2d38faf5af2a43fdi3f329",
  "ba4b2a7baba4b2a41ba4b2a33ba4b2a7baba4b2a15ba57ba4b2a67b2a3c9d9h11g3a16b10d6a86f2a6f2ad620b2d17ba26b2d3a75b3d11b7a1",
  "8b3ce9a19b2ce2d9a18b2c12a13ba3ba2c12a52b2ce7c8ec2e11c3di4dbc2a10h6a10g6a11d3ckc10h6a35bi53b7a5b2q34bcb5a70b10a31ba",
  "3c4e2c3e4a2ec6e3c4ad3a2d10h30b2a5b11a44b4a26b6a11h3a34d23b2c2ec2a2d53bece7cacec2e8c6e10c2ac10h6a10h6a7di6d2a14cj16",
  "c49a4ce47bce5cec5ec2e8b3a10h17d9c11da2ce30be4c2e2ce3c2b10h44bce2c3ece3c2e8a4d36b8e8c2e2c3a5d10h3a3b10h30b6i2d9f7a4",
  "3f2a3f8d8a3cd13ce7c4bc6bc2be2cb5a44f63l13fl34f37l64c278f2a6f2a38f2a6f2a8fafafafa31f2a53fa7fjf3j3fa7f3j4f2a6fa3j13f",
  "3j2a3fa7f2j12a5k8d2j10dj2dj2a5ka15d2e19de10da5ka10kgl2a6g5dl10g5da13l3a33d15a13c4jc3j12c15a2df4df2d10fdf2dn5f6dfdf",
  "dfd4fn6f4bf2d4f5d5f4dfd16g32f3b2f4bg2d4a663d25a11d21a60g26d52m22g630d30g992d2a32da105d124f2l103f6d4f3c2f5a4dg2d38f",
  "af5af2a56b7aid14ac23b9a7ba7ba7ba7ba7ba7ba7ba7ba32c47dr46d34a26da89d12a214d26a12d5a4di2b25d9b4c2ed5i2d3bib3da86b2a2",
  "c2j2ibd90bd3ib5a43ba94ba2d4g10d32b36d12a16b31da10g30d8gd15g32d10g39d15g320d6592b64d21013bi1143b3a55d9a40b6i2d268bi",
  "3d16b10h2b20a46fbc3jd10cdi28f2l2c80b2c6d8a23j9i2j78fl23fi2j4fb59f5a2fafa5f24a3i2fb2lf7bc3bc4bc23b2e2ce4dc3a6g4d6a5",
  "2b4d8a2e50b16e2c8a2d10h6a18c6b3dbd2bc10h28b8c2d23b11c2e11ad29b3a3ce47bc2e4c2e2c3e13dai10h4a2d5bci9b10h5ba41b6c2e2c",
  "2e2c9a3bc8bce2a10h2a4d16bi6b3dbece50bcb3c2b2c5b2cbcb24a2bi2d11be2c2e2db2iec10a6b2a6b2a6b9a7ba7ba43fj4l9fi2j4a80f35",
  "b2ec2ec2edec2a10h6a11172b12a23b4a49b8452a366b2a106b38a7f12a5f5abc10bd13ba5baba2ba2ba108b17j16a139b6g218b18d64b2a54",
  "b7ad32a10b2g4d16c3dj6d6a16c3d2e24d3e2djadj17da4d4agbgbgagbgbgbgbg126b2aka6dj6djd10hj6d26f3djej26f11d10bi45b2s31b3a",
  "6b2a6b2a6b2a3b3a3dj3da7d10a3k2d2a12ba26ba19ba2ba15b2a14b34a123b5a3d4a45g3a9d53b4g17d2g3da13d3ad47a45dc130a29b3a49b",
  "15ac27g4a32b4g9a30b5a38b5c5a30bad36b4a8bd5b42a80f78b2a10h6a36f4a36f4a40b8a52b11ad11fa15fa7fa2fa11fa15fa7fa2f67a311",
  "b9a22b10a8b24al2i3la42la9l69a6b2aba44ba2b3ab2a23bad8g23b2d7g31b8a9g48a19ba2b5a5g22b6g3ad26b5ad64a56b4a2g2b16g2a46g",
  "b3ca2c5a4c4ba3ba29b2a3c4ac9g7a9d7a29b2gd29b3g32a8bd28b2c4a5g7d9a54b3a7d22b2a8g19b5a8g18b7a4d12a7g80a73b55a51f13a51",
  "f7a6g36b4c8a10h294a31ga42ba2cd2a2b78a29b10gb8a22b11c4g5d22a18b4c4d38a21b7g20a23b9aece53b15c7d4a20g10hc2b2cb9a3ce45",
  "b3e4c2e2c2dk4dc10ak2a25b7a10h6a3c36b5ce8ca10h4db2eb8a35bc2db9a2ce48b3e9c2e4b4d4cdec10hbdb3da20g11a18ba25b3e3c2ece2",
  "c6dc65a7baba4ba15ba10bd6a47bc3e8c5a10h6a2c2ea8b2a2b2a22ba7ba2ba5ba2cb2ec4e2a2e2a3e2ab6ae5a5b2e2a7c3a5c139a53b3e8c2",
  "e3cec4b5d10h2dadc3b30a48b3e6cec4e2ce2c2bdb8a10h166a47b3e4c2a4e2ce2c23d4b2c34a48b3e8c2ece2c3db11a10h6a13d19a43bcec2",
  "e6cecbd6a10h54a27b2a3c2e4ce5c4a10h2g4d7b185a44b3e9ce2cd100a64f10h9g12a8b2ab2a8ba2ba24b6ea2e2a2cecbebec3d9a10h70a8b",
  "2a39b3e4c2a2c4ecbdbe27ab10c40b6ceb4c8dc8ab6c2e3c46b13ce2c3db5d13a73b263a9ba37be7ca6cecb5d10a10h19g3a2d30b2a22cae7c",
  "e2ce2c73a7ba2ba38b6c3aca2ca7cbc8a10h6a6ba2ba32b5ea2ca2ececb7a10h310a19b2c2e2d183ab15a21g29d13ad922b102a111ba5d11a1",
  "96b2636a97b2d13a1071ba9k4039a583b8633a569b7a31ba10h4a2d79ba10h6a30b2a5cd10a48b7c9d4i2d10a10ha7ga21b5a19b688a64f23g",
  "4d101a75b4acb55e7a4c13i64a2idic11a2e14a6136b8a1238b42a9b8935a4ia7ia2ia291b45a3b17a4b8a396b2308a107b5a13b3a9b7a10b2",
  "ad2cd4k4700a46c2a23c9a116d60a246d10a39d2a60d2e3c3d6e8k8c2d7c30d4c61d21a66d3cd154a20g12a87d9a25g135a85fa71fa2f2af2a",
  "2f2a4fa12fafa7fa65fa4f2a8fa7fa28fa4fa5faf3a7fa340f2a25fd25fd31fd25fd31fd25fd31fd25fd31fd25fd8f2a50h512d55c4d50c8dc",
  "14dc7d15a5ca15c1104a10fb20f225a7ca17c2a7ca2ca5c213a45b3a7c7i2a10h4abd320a30bc17a44b4c10h5ad1248a7ba4ba2ba15ba197b2",
  "a9g7c41a68f7ci4a10h4a2d785a59gd3gd4g76a45gd15g194a4ba27ba2bab2aba10ba4babab6ab4abababa3ba2bab2abababababa2bab2a4ba",
  "7ba4ba4baba10ba17b5a3ba5ba17b52a2d270a44d4a100d12a15d2a15da15da37d10a13g35d26m6d26m6d26m36d56a29d13a44d4a9d7a2d14a",
  "6d154a251d5j728d5a16d3a13d3a116d12a89d7a12d4ad15a12d4a56d8a10d6a40d8a30d2a2d78a340d12a14d2a5d3a5d3a7d9a29d3a11d5a6",
  "d10a10d6a8d8a7d9a147da55d37a10h1030a42720b32a4153b7a222b2a5762b14a7473b3103a542b1506a4939b715958ak30a96k128a240c19",
  "6112a"]

/-- The runs of a row, behind the digits of `length`. -/
def runsFrom (length : Nat) : List Char → List (Nat × Char)
  | [] => []
  | c :: r => if c.isDigit then runsFrom (10 * length + (c.toNat - 48)) r else (max 1 length, c) :: runsFrom 0 r

def classRuns : List (Nat × Char) := runsFrom 0 (classRow.flatMap String.toList)

def classAt (distance : Nat) : List (Nat × Char) → Option Char
  | [] => none
  | (length, k) :: runs => if distance < length then some k else classAt (distance - length) runs

def isIn (classes : String) (c : Char) : Bool :=
  128 ≤ c.toNat && (classAt (c.toNat - 128) classRuns).any classes.toList.contains

def isNameStart (c : Char) : Bool :=
  if c.toNat < 128 then c.isAlpha || c = '_'
  else isIn "bfilnq" c

def isNameChar (c : Char) : Bool :=
  isNameStart c || c.isDigit || isIn "cehos" c

/-- The first character of a text that cannot stand where it stands in a name. -/
def nameFlaw? (s : List Char) : Option Char :=
  match s with
  | [] => none
  | c :: r => if isNameStart c then r.find? fun c => !isNameChar c else some c

/-- **Word characters.** A letter or digit of any script, or the underscore. -/
def isWordChar (c : Char) : Bool :=
  if c.toNat < 128 then c.isAlphanum || c == '_'
  else isIn "bfghilprs" c

/-- **Characters that can be shown.** -/
def isVisible (c : Char) : Bool :=
  if c.toNat < 128 then 32 ≤ c.toNat && c.toNat < 127
  else !isIn "ak" c

end BitSchema.Text
