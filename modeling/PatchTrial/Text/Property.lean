import PatchTrial.Text.Category

/-!
Properties of characters that are not white space or a category. Most differ from a set of
categories at a few code points only, so each is that set corrected by runs of exceptions, which
alternate between code points that follow their category and code points that do not.
-/
namespace PatchTrial.Text

/-- A set of categories, and the runs of code points at which the property disagrees with it. -/
structure Property where
  tags : List String
  exceptions : List Nat

def Property.holds (p : Property) (point : Nat) : Bool :=
  hasCategory p.tags point != insideRuns p.exceptions point

/-- Letters, and the marks and numbers that take part in words. -/
def Property.alphabetic : Property where
  tags := letterTags ++ ["Nl"]
  exceptions := readRuns "837 1 618 14 1 1 1 2 1 2 1 1 72 11 48 13 1 7 16 1 101 7 4 4 2 2 4 1 35 1 30 16 102 11 101 2
    3 9 1 3 1 4 167 12 3 7 6 20 54 2 2 15 1 2 5 3 10 2 29 3 58 7 2 2 2 2 10 1 10 2 29 3 58 5 4 2
    2 2 4 1 30 2 3 1 11 3 58 8 1 3 1 2 21 2 22 3 4 3 58 7 2 2 2 2 9 2 10 2 30 1 59 5 3 3 1 3 10
    1 40 5 57 7 1 3 1 3 8 2 11 2 29 3 58 7 1 3 1 3 8 2 11 2 15 1 12 4 58 7 1 3 1 3 10 1 10 2 29
    3 75 6 1 1 1 8 18 2 61 1 2 7 18 1 99 1 2 6 1 2 16 1 163 19 9 11 1 36 110 12 1 1 2 4 23 4 4 3
    1 3 2 7 3 4 13 12 1 1 10 4 1652 2 30 2 30 2 30 2 66 19 188 2 34 1 118 12 4 9 222 5 57 10 2
    20 74 2 11 3 49 5 48 15 60 3 30 9 2 2 57 11 50 19 432 14 1729 52 2294 32 30836 8 34 2 354 1
    8 1 23 5 88 2 50 16 1 1 57 1 38 5 28 12 45 4 48 12 37 1 67 14 12 1 8 2 45 3 50 1 1 3 2 2 5 1
    44 5 5 1 237 8 20275 1 2135 5 1670 3 1 2 5 4 788 4 387 2 339 3 53 14 45 2 11 3 45 9 9 1 61 3
    36 12 18 2 57 3 48 13 14 2 92 9 2 1 6 1 2 1 157 10 23 4 58 7 2 2 2 2 10 1 10 2 209 13 1 3
    106 18 237 7 2 7 29 2 82 15 1 1 106 11 103 14 257 13 247 6 1 2 2 2 3 1 1 1 142 7 2 6 4 1 28
    10 42 5 1 4 18 11 46 14 407 8 1 7 83 22 1 14 122 6 3 1 1 2 1 3 1 1 3 1 66 5 1 2 1 4 348 4 9
    2 1 1 48 7 3 3 20494 1 1 55 7 4 93 2 19628 1 9057 7 1 17 2 7 1 2 1 5 100 1 2231 1 2024 26 6
    26 6 26"

/-- Lower-case letters and the letter-like signs that count as such. -/
def Property.lowercase : Property where
  tags := ["Ll"]
  exceptions := readRuns "170 1 15 1 501 9 7 2 30 5 96 1 52 1 3457 1 3119 63 13 1 34 37 689 1 13 1 16 13 211 16 848 26
    1938 2 31262 2 210 1 129 3 3 2 866 4 9 1 23574 1 2 3 1 42 1 9 55413 62"

/-- Upper-case letters and the letter-like signs that count as such. -/
def Property.uppercase : Property where
  tags := ["Lu"]
  exceptions := readRuns "8544 16 838 26 117856 26 6 26 6 26"

def Property.cased : Property where
  tags := ["Lu", "Ll", "Lt"]
  exceptions := readRuns "170 1 15 1 501 9 7 2 30 5 96 1 52 1 3457 1 3119 63 13 1 34 37 689 1 13 1 16 13 195 32 822 52
    1938 2 31262 2 210 1 129 3 3 2 866 4 9 1 23574 1 2 3 1 42 1 9 55413 62 4290 26 6 26 6 26"

def Property.graphemeExtend : Property where
  tags := ["Mn", "Me"]
  exceptions := readRuns "2494 1 24 1 358 1 24 1 102 1 24 1 234 1 18 2 103 1 24 1 119 1 15 1 3413 1 1238 1 4129 2
    53102 2 5022 1 24 1 344 1 12 1 241 1 896 1 47156 1 8 5 798381 96"

def Property.identifierStart : Property where
  tags := letterTags ++ ["Nl"]
  exceptions := readRuns "890 1 2744 1 127 1 2513 2 2193 1 21 1 3328 1 52782 6 406 2 116 1 1 1 1 1 1 1 1 1 1 1 1 1 1 1
    287 2"

def Property.identifierPart : Property where
  tags := letterTags ++ ["Nl", "Mn", "Mc", "Nd", "Pc"]
  exceptions := readRuns "183 1 706 1 12 1 4065 9 1640 1 1853 1 21 1 3328 1 52782 6 406 2 116 1 1 1 1 1 1 1 1 1 1 1 1
    1 1 1"

def Property.math : Property where
  tags := ["Sm"]
  exceptions := readRuns "94 1 881 3 2 1 26 2 2 2 7200 1 27 3 11 1 32 4 24 2 14 2 65 13 4 1 3 2 4 5 18 1 4 1 2 10 1 1
    3 5 6 1 3 2 2 2 1 3 1 6 3 4 5 5 75 5 2 4 1 2 1 2 1 1 1 5 2 2 4 2 4 18 2 2 1 1 1 7 1 1 6 2
    290 4 168 2 1 1 24 1 17 1 445 2 12 9 5 5 5 2 2 2 3 5 14 1 1 1 2 6 24 2 57 1 1 1 29 4 9 2 342
    2 31 10 403 22 63 4 32 2 54371 1 1 1 4 1 211 1 1 1 54465 85 1 71 1 2 2 1 2 2 2 4 1 12 1 1 1
    7 1 65 1 4 2 8 1 7 1 28 1 4 1 5 1 1 3 7 1 340 2 25 1 25 1 31 1 25 1 31 1 25 1 31 1 25 1 31 1
    25 1 8 2 50 5632 4 1 27 1 2 1 1 2 1 1 10 1 4 1 1 1 1 6 1 4 1 1 1 1 1 1 3 1 2 1 1 2 1 1 1 1 1
    1 1 1 1 1 2 1 1 2 4 1 7 1 4 1 4 1 1 1 10 1 17 5 3 1 5 1 17"

def Property.dash : Property where
  tags := ["Pd"]
  exceptions := readRuns "8275 1 39 1 15 1 390 1"

def Property.emoji : Property where
  tags := []
  exceptions := readRuns "35 1 6 1 5 10 111 1 4 1 8077 1 12 1 216 1 22 1 90 6 15 2 367 2 12 1 166 1 25 11 4 3 199 1
    231 2 10 1 9 1 58 4 1 5 9 1 2 1 2 2 2 1 4 1 2 1 1 2 2 1 3 1 3 2 8 3 5 1 1 1 5 12 11 2 2 1 1
    2 1 1 18 1 2 2 18 6 1 1 1 2 3 2 5 1 2 2 4 2 11 2 5 2 2 1 5 2 1 1 1 2 20 2 5 6 1 4 2 1 4 1 2
    1 2 6 1 1 2 1 1 1 1 1 6 1 3 1 6 1 10 2 15 1 2 1 4 1 1 1 4 3 1 1 11 2 48 3 9 1 14 1 14 1 372
    2 463 3 19 2 51 1 4 1 1242 1 12 1 601 1 1 1 114026 1 202 1 160 2 12 2 14 1 2 10 75 26 1 2 23
    1 20 1 2 9 21 2 174 34 2 112 2 2 1 3 2 83 2 3 1 263 1 63 11 6 1 24 7 2 2 8 12 1 2 4 2 1 4 2
    13 2 2 1 8 2 9 1 5 3 12 3 8 3 2 1 1 1 4 1 6 1 3 1 6 86 48 70 5 8 2 3 4 10 3 1 1 2 3 1 2 10
    227 12 4 1 283 47 1 10 1 185 112 13 3 9 7 46 1 7 8 14 4 9 7 9"

def Property.ideographic : Property where
  tags := []
  exceptions := readRuns "12294 2 25 9 14 3 965 6592 64 20992 22784 366 2 106 29962 1 27 6136 8 1238 42 9 9319 396
    19716 42720 32 4154 6 222 2 5762 14 7473 3103 542 1506 4939 5 4192"

def Property.pictographic : Property where
  tags := []
  exceptions := readRuns "169 1 4 1 8077 1 12 1 216 1 22 1 90 6 15 2 367 2 12 1 95 1 70 1 25 11 4 3 199 1 231 2 10 1 9
    1 58 4 1 6 1 12 1 114 10 118 2 11 1 1 1 1 6 1 3 1 6 1 10 2 15 1 2 1 4 1 1 1 4 3 1 1 11 5 45
    3 9 1 14 1 14 1 372 2 463 3 19 2 51 1 4 1 1242 1 12 1 601 1 1 1 114022 256 13 3 31 1 60 6 12
    2 14 1 2 10 18 57 27 15 10 1 20 1 2 9 1 4 9 434 5 318 8 266 48 128 116 12 85 43 12 4 56 8 10
    6 40 8 30 82 12 47 1 10 1 441 256 1022"

def Property.diacritic : Property where
  tags := ["Sk"]
  exceptions := readRuns "183 1 504 18 4 12 14 5 7 1 1 1 17 79 1 8 5 6 17 1 5 1 264 5 209 1 55 17 1 27 1 1 1 2 1 1 134
    8 4 2 134 2 4 2 3 3 67 27 91 11 58 11 34 2 110 1 15 8 41 10 16 28 61 1 16 1 3 4 28 1 74 1 16
    1 110 1 16 1 110 1 16 1 47 3 60 1 16 1 7 1 119 1 110 1 16 1 110 1 16 1 109 2 16 1 124 1 124
    6 1 1 107 1 13 5 75 2 27 1 1 1 1 1 4 2 66 3 1 2 62 1 112 1 1 2 40 2 4 5 25 7 1 1 10 2 705 3
    948 2 179 11 9 1 347 3 313 8 2 1 48 15 2 11 104 1 15 1 38 9 54 2 138 2 64 6 82 25 4 1 6 1 2
    3 50 63 89 12 37 11 3823 3 317 1 506 6 105 2 97 1 30066 1 12 2 1 1 28 2 82 2 37 9 104 1 111
    2 202 1 27 18 57 4 36 1 95 1 12 1 36 1 149 3 65 4 51 1 101 4 9 1 130 2 20272 1 147 17 605 16
    320 1 45 2 832 1 1183 6 1 42 1 9 810 2 571 6 469 3 70 11 49 4 192 1 41 1 72 2 120 2 62 1 76
    1 9 3 104 2 178 2 81 1 16 1 24 7 3 5 205 1 3 1 123 2 251 2 126 1 118 2 115 1 269 2 258 2 4 1
    156 1 83 1 18 1 81 1 421 1 258 1 1 2 81 1 5807 15 13978 5 59 7 1112 17 80 2 16382 4 1 7 1 2
    7937 46 2 23 544 3 3 6 8 8 2 7 30 4 3714 62 194 7 375 1 61 4 1504 7 109 3 1 3 2736 5"

end PatchTrial.Text
