import BitSchema.Text.Classes

/-!
# Capital and small letters

The capital, small and title form of every character, after Unicode 14.  Forms of ASCII letters are the
usual ones.  Above ASCII the form of most letters is another letter at a fixed distance; rows of such letters
are listed as runs.  The other letters are listed one by one; some have a form of several characters (`ß` is
`SS` in capitals).

A small sigma has a shape of its own at the end of a word: where a letter comes before it and none after
it, marks that belong to letters left aside (`closesWord`).

* `capitals`, `titleCase` and `smalls` turn texts into capitals, title case and small letters.
-/

namespace BitSchema.Text

/-- A run of letters `first, first + step, …, last` whose other form stands `shift` further. -/
structure CaseRun where
  first : Nat
  last : Nat
  step : Nat
  shift : Int
deriving DecidableEq, Repr

namespace CaseRun

def has (r : CaseRun) (n : Nat) : Bool :=
  r.first ≤ n && n ≤ r.last && (n - r.first) % r.step == 0

def shifted? (runs : List CaseRun) (n : Nat) : Option Nat :=
  (runs.find? fun r => r.has n).map fun r => ((n : Int) + r.shift).toNat

def mirror (r : CaseRun) : CaseRun := ⟨((r.first : Int) + r.shift).toNat, ((r.last : Int) + r.shift).toNat, r.step, -r.shift⟩

end CaseRun

def formsIn (texts : List String) : List (Char × List Char) :=
  (texts.flatMap (·.splitOn " ")).filterMap fun w =>
    match w.toList with
    | [] => none
    | c :: form => some (c, form)

/-- Runs of small letters above ASCII with a capital of which they are the small form. -/
def caseRuns : List CaseRun := [
  ⟨0xe0, 0xf6, 1, -32⟩, ⟨0xf8, 0xfe, 1, -32⟩, ⟨0x101, 0x12f, 2, -1⟩, ⟨0x13a, 0x148, 2, -1⟩, ⟨0x14b, 0x177, 2, -1⟩,
  ⟨0x1ce, 0x1dc, 2, -1⟩, ⟨0x1df, 0x1ef, 2, -1⟩, ⟨0x1f9, 0x21f, 2, -1⟩, ⟨0x223, 0x233, 2, -1⟩, ⟨0x247, 0x24f, 2, -1⟩,
  ⟨0x3b1, 0x3c1, 1, -32⟩, ⟨0x3c3, 0x3cb, 1, -32⟩, ⟨0x3d9, 0x3ef, 2, -1⟩, ⟨0x430, 0x44f, 1, -32⟩,
  ⟨0x450, 0x45f, 1, -80⟩, ⟨0x461, 0x481, 2, -1⟩, ⟨0x48b, 0x4bf, 2, -1⟩, ⟨0x4c2, 0x4ce, 2, -1⟩, ⟨0x4d1, 0x52f, 2, -1⟩,
  ⟨0x561, 0x586, 1, -48⟩, ⟨0x10d0, 0x10fa, 1, 3008⟩, ⟨0x13f8, 0x13fd, 1, -8⟩, ⟨0x1e01, 0x1e95, 2, -1⟩,
  ⟨0x1ea1, 0x1eff, 2, -1⟩, ⟨0x1f00, 0x1f07, 1, 8⟩, ⟨0x1f10, 0x1f15, 1, 8⟩, ⟨0x1f20, 0x1f27, 1, 8⟩,
  ⟨0x1f30, 0x1f37, 1, 8⟩, ⟨0x1f40, 0x1f45, 1, 8⟩, ⟨0x1f51, 0x1f57, 2, 8⟩, ⟨0x1f60, 0x1f67, 1, 8⟩,
  ⟨0x1f72, 0x1f75, 1, 86⟩, ⟨0x2170, 0x217f, 1, -16⟩, ⟨0x24d0, 0x24e9, 1, -26⟩, ⟨0x2c30, 0x2c5f, 1, -48⟩,
  ⟨0x2c81, 0x2ce3, 2, -1⟩, ⟨0x2d00, 0x2d25, 1, -7264⟩, ⟨0xa641, 0xa66d, 2, -1⟩, ⟨0xa681, 0xa69b, 2, -1⟩,
  ⟨0xa723, 0xa72f, 2, -1⟩, ⟨0xa733, 0xa76f, 2, -1⟩, ⟨0xa77f, 0xa787, 2, -1⟩, ⟨0xa797, 0xa7a9, 2, -1⟩,
  ⟨0xa7b5, 0xa7c3, 2, -1⟩, ⟨0xab70, 0xabbf, 1, -38864⟩, ⟨0xff41, 0xff5a, 1, -32⟩, ⟨0x10428, 0x1044f, 1, -40⟩,
  ⟨0x104d8, 0x104fb, 1, -40⟩, ⟨0x10597, 0x105a1, 1, -39⟩, ⟨0x105a3, 0x105b1, 1, -39⟩, ⟨0x105b3, 0x105b9, 1, -39⟩,
  ⟨0x10cc0, 0x10cf2, 1, -64⟩, ⟨0x118c0, 0x118df, 1, -32⟩, ⟨0x16e60, 0x16e7f, 1, -32⟩, ⟨0x1e922, 0x1e943, 1, -34⟩]

def casePairs : List (Char × List Char) := formsIn [
  "ÿŸ ĳĲ ĵĴ ķĶ źŹ żŻ žŽ ƀɃ ƃƂ ƅƄ ƈƇ ƌƋ ƒƑ ƕǶ ƙƘ ƚȽ ƞȠ ơƠ ƣƢ ƥƤ ƨƧ ƭƬ ưƯ ƴƳ ƶƵ ƹƸ ƽƼ ƿǷ ǆǄ ǉǇ ǌǊ ǝƎ ǳǱ ǵǴ ȼȻ ȿⱾ ɀⱿ",
  "ɂɁ ɐⱯ ɑⱭ ɒⱰ ɓƁ ɔƆ ɖƉ ɗƊ əƏ ɛƐ ɜꞫ ɠƓ ɡꞬ ɣƔ ɥꞍ ɦꞪ ɨƗ ɩƖ ɪꞮ ɫⱢ ɬꞭ ɯƜ ɱⱮ ɲƝ ɵƟ ɽⱤ ʀƦ ʂꟅ ʃƩ ʇꞱ ʈƮ ʉɄ ʊƱ ʋƲ ʌɅ ʒƷ ʝꞲ",
  "ʞꞰ ͱͰ ͳͲ ͷͶ ͻϽ ͼϾ ͽϿ άΆ έΈ ήΉ ίΊ όΌ ύΎ ώΏ ϗϏ ϲϹ ϳͿ ϸϷ ϻϺ ӏӀ ჽᲽ ჾᲾ ჿᲿ ᵹꝽ ᵽⱣ ᶎꟆ ὰᾺ άΆ ὶῚ ίΊ ὸῸ όΌ ὺῪ ύΎ ὼῺ ώΏ ᾰᾸ",
  "ᾱᾹ ῐῘ ῑῙ ῠῨ ῡῩ ῥῬ ⅎℲ ↄↃ ⱡⱠ ⱥȺ ⱦȾ ⱨⱧ ⱪⱩ ⱬⱫ ⱳⱲ ⱶⱵ ⳬⳫ ⳮⳭ ⳳⳲ ⴧჇ ⴭჍ ꝺꝹ ꝼꝻ ꞌꞋ ꞑꞐ ꞓꞒ ꞔꟄ ꟈꟇ ꟊꟉ ꟑꟐ ꟗꟖ ꟙꟘ ꟶꟵ ꭓꞳ 𐖻𐖔 𐖼𐖕"]

def capitalForms : List (Char × List Char) := casePairs ++ formsIn [
  "µΜ ßSS ıI ŉʼN ſS ǅǄ ǈǇ ǋǊ ǰJ̌ ǲǱ ͅΙ ΐΪ́ ΰΫ́ ςΣ ϐΒ ϑΘ ϕΦ ϖΠ ϰΚ ϱΡ ϵΕ ևԵՒ ᲀВ ᲁД ᲂО ᲃС ᲄТ ᲅТ ᲆЪ ᲇѢ ᲈꙊ ẖH̱ ẗT̈ ẘW̊",
  "ẙY̊ ẚAʾ ẛṠ ὐΥ̓ ὒΥ̓̀ ὔΥ̓́ ὖΥ̓͂ ᾀἈΙ ᾁἉΙ ᾂἊΙ ᾃἋΙ ᾄἌΙ ᾅἍΙ ᾆἎΙ ᾇἏΙ ᾈἈΙ ᾉἉΙ ᾊἊΙ ᾋἋΙ ᾌἌΙ ᾍἍΙ ᾎἎΙ ᾏἏΙ ᾐἨΙ ᾑἩΙ ᾒἪΙ ᾓἫΙ",
  "ᾔἬΙ ᾕἭΙ ᾖἮΙ ᾗἯΙ ᾘἨΙ ᾙἩΙ ᾚἪΙ ᾛἫΙ ᾜἬΙ ᾝἭΙ ᾞἮΙ ᾟἯΙ ᾠὨΙ ᾡὩΙ ᾢὪΙ ᾣὫΙ ᾤὬΙ ᾥὭΙ ᾦὮΙ ᾧὯΙ ᾨὨΙ ᾩὩΙ ᾪὪΙ ᾫὫΙ ᾬὬΙ ᾭὭΙ ᾮὮΙ ᾯὯΙ",
  "ᾲᾺΙ ᾳΑΙ ᾴΆΙ ᾶΑ͂ ᾷΑ͂Ι ᾼΑΙ ιΙ ῂῊΙ ῃΗΙ ῄΉΙ ῆΗ͂ ῇΗ͂Ι ῌΗΙ ῒΪ̀ ΐΪ́ ῖΙ͂ ῗΪ͂ ῢΫ̀ ΰΫ́ ῤΡ̓ ῦΥ͂ ῧΫ͂ ῲῺΙ ῳΩΙ ῴΏΙ ῶΩ͂",
  "ῷΩ͂Ι ῼΩΙ ﬀFF ﬁFI ﬂFL ﬃFFI ﬄFFL ﬅST ﬆST ﬓՄՆ ﬔՄԵ ﬕՄԻ ﬖՎՆ ﬗՄԽ"]

def smallRuns : List CaseRun := caseRuns.map CaseRun.mirror ++ [
  ⟨0x1f88, 0x1f8f, 1, -8⟩, ⟨0x1f98, 0x1f9f, 1, -8⟩, ⟨0x1fa8, 0x1faf, 1, -8⟩]

def smallForms : List (Char × List Char) := (casePairs.flatMap fun p => p.2.map (·, [p.1])) ++ formsIn [
  "İi̇ ǅǆ ǈǉ ǋǌ ǲǳ ϴθ ẞß ᾼᾳ ῌῃ ῼῳ Ωω Kk Åå"]

def titleForms : List (Char × List Char) := formsIn [
  "ßSs Ǆǅ ǅǅ ǆǅ Ǉǈ ǈǈ ǉǈ Ǌǋ ǋǋ ǌǋ Ǳǲ ǲǲ ǳǲ ևԵւ აა ბბ გგ დდ ეე ვვ ზზ თთ იი კკ ლლ მმ ნნ ოო პპ ჟჟ რრ სს ტტ",
  "უუ ფფ ქქ ღღ ყყ შშ ჩჩ ცც ძძ წწ ჭჭ ხხ ჯჯ ჰჰ ჱჱ ჲჲ ჳჳ ჴჴ ჵჵ ჶჶ ჷჷ ჸჸ ჹჹ ჺჺ ჽჽ ჾჾ ჿჿ ᾀᾈ ᾁᾉ ᾂᾊ ᾃᾋ ᾄᾌ ᾅᾍ",
  "ᾆᾎ ᾇᾏ ᾈᾈ ᾉᾉ ᾊᾊ ᾋᾋ ᾌᾌ ᾍᾍ ᾎᾎ ᾏᾏ ᾐᾘ ᾑᾙ ᾒᾚ ᾓᾛ ᾔᾜ ᾕᾝ ᾖᾞ ᾗᾟ ᾘᾘ ᾙᾙ ᾚᾚ ᾛᾛ ᾜᾜ ᾝᾝ ᾞᾞ ᾟᾟ ᾠᾨ ᾡᾩ ᾢᾪ ᾣᾫ ᾤᾬ ᾥᾭ ᾦᾮ",
  "ᾧᾯ ᾨᾨ ᾩᾩ ᾪᾪ ᾫᾫ ᾬᾬ ᾭᾭ ᾮᾮ ᾯᾯ ᾲᾺͅ ᾳᾼ ᾴΆͅ ᾷᾼ͂ ᾼᾼ ῂῊͅ ῃῌ ῄΉͅ ῇῌ͂ ῌῌ ῲῺͅ ῳῼ ῴΏͅ ῷῼ͂ ῼῼ ﬀFf ﬁFi ﬂFl ﬃFfi",
  "ﬄFfl ﬅSt ﬆSt ﬓՄն ﬔՄե ﬕՄի ﬖՎն ﬗՄխ"]

def formOf (forms : List (Char × List Char)) (runs : List CaseRun) (c : Char) : List Char :=
  (forms.lookup c).getD [((CaseRun.shifted? runs c.toNat).map Char.ofNat).getD c]

def isAscii (c : Char) : Bool := c.toNat < 128

def capital (c : Char) : List Char :=
  if isAscii c then [c.toUpper] else formOf capitalForms caseRuns c

def titled (c : Char) : List Char :=
  if isAscii c then [c.toUpper] else (titleForms.lookup c).getD (capital c)

def small (c : Char) : List Char :=
  if isAscii c then [c.toLower] else formOf smallForms smallRuns c

def isCased (c : Char) : Bool :=
  if isAscii c then c.isAlpha else isIn "flmop" c

def isIgnored (c : Char) : Bool :=
  if isAscii c then ['\'', '.', ':', '^', '\x60'].contains c
  else isIn "cijklopqrs" c

def meetsLetter (cs : List Char) : Bool :=
  ((cs.dropWhile isIgnored).head?.map isCased).getD false

/-- Whether a letter stands at the end of a word, given what stands before it, nearest first, and after
it. -/
def closesWord (before after : List Char) : Bool :=
  meetsLetter before && !meetsLetter after

def smallAt (before : List Char) (c : Char) (after : List Char) : List Char :=
  if c == 'Σ' then [if closesWord before after then 'ς' else 'σ'] else small c

/-- Small letters behind the characters `before`, nearest first. -/
def smallsFrom (before : List Char) : List Char → List Char
  | [] => []
  | c :: r => smallAt before c r ++ smallsFrom (c :: before) r

/-- **Small letters.** -/
def smalls (cs : List Char) : List Char := smallsFrom [] cs

/-- **Capitals.** -/
def capitals (cs : List Char) : List Char := cs.flatMap capital

/-- Title case behind the characters `before`, nearest first. -/
def titleFrom (before : List Char) : List Char → List Char
  | [] => []
  | c :: r =>
    (if (before.head?.map isCased).getD false then smallAt before c r else titled c)
      ++ titleFrom (c :: before) r

/-- **Title case.** Each letter that follows no letter has its title form, the others are small. -/
def titleCase (cs : List Char) : List Char := titleFrom [] cs

end BitSchema.Text
