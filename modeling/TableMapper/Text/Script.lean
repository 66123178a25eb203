import TableMapper.Text.CodePoints

/-! # Scripts of characters

The writing systems that patterns can name, as sets of code points.
-/

namespace TableMapper.Text

def scriptLatin : CodePoints := .ofTable
  ["1t q 6 q 1b 1 f 1 5 n 1 v 1 ch 13 5 55n 12 6 1d 5 4 5 d 1 1y 1t 74 a9 1 d 1 g d 3x 2 6 1 r 1 ",
   "h 15 253 w o82 2u 3 1s 5 2 1 1 1 5 o e mo 17 1 9 1 4 fpy 7 t6 q 6 q 1lx 6 1 16 1 9 16it v 6 ",
   "6"]

def scriptGreek : CodePoints := .ofTable
  ["og 4 1 3 2 4 1 1 4 1 1 1 1 3 1 1 1 k 1 1r e g 4yu 5 1e 5 4 5 2c 1 8w m 2 6 2 12 2 6 2 8 1 1 ",
   "1 1 1 1 1 v 2 1h 1 f 1 e 2 6 1 j 2 3 1 9 87 1 rb2 1 gyi 27 h 1 155r 1y"]

def scriptCyrillic : CodePoints := .ofTable
  ["sg 3p 2 4p 4ls 9 4i 1 24 1 38n w nr4 2o ham 2 18n4 1q x 1"]

def scriptArmenian : CodePoints := .ofTable
  ["10x 12 2 1e 2 3 1chv 5"]

def scriptGeorgian : CodePoints := .ofTable
  ["3a8 12 1 1 5 1 2 17 1 4 2a8 17 2 3 37k 12 1 1 5 1"]

def scriptHebrew : CodePoints := .ofTable
  ["13l 1j 8 r 4 6 1cfc q 1 5 1 1 1 2 1 2 1 a"]

def scriptArabic : CodePoints := .ofTable
  ["16o 5 1 6 1 e 1 3 1 w 1 a b q 1 30 1 y 28 1c 6o v 1 2 6 22 1 t 1bv4 37 g a3 2 28 2 1i 7 1 w ",
   "g 34 5 1 3r 31f v 3i 3 181s 4 1 r 1 2 1 1 2 1 1 a 1 4 1 1 1 1 6 1 4 1 1 1 1 1 1 3 1 2 1 1 2 ",
   "1 1 1 1 1 1 1 1 1 1 2 1 1 2 4 1 7 1 4 1 4 1 1 1 a 1 h 5 3 1 5 1 h 1g 2"]

def scriptDevanagari : CodePoints := .ofTable
  ["1s0 29 4 f 2 q vhc w mio a"]

def scriptThai : CodePoints := .ofTable
  ["2rl 1m 5 s"]

def scriptHangul : CodePoints := .ofTable
  ["3cw 74 5ym 2 75 2m 35 v 1t v nhd t hv 8mc c n 4 1d 7tw v 3 6 2 6 2 6 2 3"]

def scriptHiragana : CodePoints := .ofTable
  ["9j5 2e 6 3 23q9 7z i 1 t 3 crx 1"]

def scriptKatakana : CodePoints := .ofTable
  ["9lt 2i 2 3 6o g 5s 1b 1 2g 14b2 a 1 19 ytu 4 1 7 1 2 1 1 7z 3 1e 1 e 4"]

def scriptHan : CodePoints := .ofTable
  ["96o q 1 2h c 5y 1b 1 1 1 p 9 e 4 qs 534 1s g74 hkw a6 2 2y n48 2 c 2 sge wyo w 37e 6 66 2 ",
   "4g2 e 5rl 2e7 f2 15u 3t7 5 38g"]

/-- The scripts that patterns can name, by their names in lower case. -/
def scripts : List (String × CodePoints) :=
  [("latin", scriptLatin),
   ("greek", scriptGreek),
   ("cyrillic", scriptCyrillic),
   ("armenian", scriptArmenian),
   ("georgian", scriptGeorgian),
   ("hebrew", scriptHebrew),
   ("arabic", scriptArabic),
   ("devanagari", scriptDevanagari),
   ("thai", scriptThai),
   ("hangul", scriptHangul),
   ("hiragana", scriptHiragana),
   ("katakana", scriptKatakana),
   ("han", scriptHan)]

end TableMapper.Text
