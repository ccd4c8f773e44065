/-
Blanks: the characters with the Unicode property White_Space.
-/
namespace QueryCanon
namespace Unicode

/-- The property White_Space: twenty-five characters. -/
def isBlank (c : Char) : Bool :=
  (9 ≤ c.toNat && c.toNat ≤ 13) || c.toNat == 0x20 || c.toNat == 0x85 || c.toNat == 0xa0 ||
    c.toNat == 0x1680 || (0x2000 ≤ c.toNat && c.toNat ≤ 0x200a) || c.toNat == 0x2028 ||
    c.toNat == 0x2029 || c.toNat == 0x202f || c.toNat == 0x205f || c.toNat == 0x3000

/-- The characters of `s` up to the blanks that end it. -/
def trimEnd (s : String) : List Char :=
  (s.toList.reverse.dropWhile isBlank).reverse

end Unicode
end QueryCanon
