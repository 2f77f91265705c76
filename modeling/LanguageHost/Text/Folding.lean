import LanguageHost.Text.CodeRanges

/-!
# Characters that differ in case only

The simple case folding sends characters that differ in case only to one of them.  A set of
characters is closed under it by adding, for every character, all that are folded to the same.
-/

namespace LanguageHost.Text.Folding

/-- For every code point that others are folded to: the distance from the one before it, how many
others there are, and their signed distances from it, in compact notation. -/
def table : String :=
  String.join [
    "D11Bv11Bv11Bv11Bv11Bv11Bv11Bv11Bv11Bv11Bv12BvQLu11Bv11Bv11Bv11Bv11Bv11Bv11Bv12BvQo11Bv11Bv",
    "11Bv11Bv11Bv11Bv11BvD51Oxu11Bv11Bv11Bv11Bv11Bv12BvQEc11Bv11Bv11Bv11Bv11Bv11Bv11Bv11Bv11Bv1",
    "1Bv11Bv11Bv11Bv11Bv11Bv11Bv11Bv21Bv11Bv11Bv11Bv11Bv11Bv11Bv11Hi211211211211211211211211211",
    "211211211211211211211211211211211211211211211411211211311211211211211211211211311211211211",
    "21121121121121121121121121121121121121121121121121121121131121121121M631121131141161131G24",
    "1111K641I431121121131151131141121131141121Dg72313231323121121121121121121121121111Et211211",
    "211211211211211211211423121141121121121121121121121121121121121121121121121121121121121141",
    "121121121121121121121121191131VDu11VDu21151121121121121111VBu11VBo11VBs11N311Mr21Mp11Mp21M",
    "j21Ml11CSUu41Mp11CSUm21Mt21CSSg11CSU821N111N511CSU811U-e11CSU231N521U-q11N931Nb81U+e31Nj21",
    "CSU611Nj41CSSk11Nj11E911Nh11Nh11Ed61Nlb1CSRa11CSR4Gj1121141141I411I411I4Bf1Cb11C911C911C92",
    "1Bv12BvBs11Bv11Bv12BvE011Bv11Bv13BvBiDo13H7BvOAa12BvDc11Bv12BQdBv11Bv11Bv11Bv12BvBc12BvD02",
    "2Bv111Bv11Bv12Bvu11Bv11Bv12BvOVq11Bv11Bv11Dv11Dt11Dt91f21121121121121121121121121121121121",
    "131e11H7511311Bl1Bv11Bv12BvMEs11Bv12BvMEq11Bv11Bv11Bv11Bv11Bv11Bv11Bv11Bv11Bv12BvME811Bv11",
    "Bv12BvME413BvME4ME611Bv11Bv11Bv11Bv11Bv11Bv11Bv12BvMDo11Bv11Bv11Bv11Bv11Bv11Ev11Ev11Ev11Ev",
    "11Ev11Ev11Ev11Ev11Ev11Ev11Ev11Ev11Ev11Ev11Ev11Ev211221MC8211211211211211211211211211211211",
    "211211211211a11211211211211211211211211211211211211211211211211211211211211211211211211211",
    "21131121121121121121121111t211211211211211211211211211211211211211211211211211211211211211",
    "211211211211211211211211211211211211211211211211211211211211211211211211211211211Bi1Cv11Cv",
    "11Cv11Cv11Cv11Cv11Cv11Cv11Cv11Cv11Cv11Cv11Cv11Cv11Cv11Cv11Cv11Cv11Cv11Cv11Cv11Cv11Cv11Cv11",
    "Cv11Cv11Cv11Cv11Cv11Cv11Cv11Cv11Cv11Cv11Cv11Cv11Cv11CvCwa1Fy011Fy011Fy011Fy011Fy011Fy011Fy",
    "011Fy011Fy011Fy011Fy011Fy011Fy011Fy011Fy011Fy011Fy011Fy011Fy011Fy011Fy011Fy011Fy011Fy011Fy",
    "011Fy011Fy011Fy011Fy011Fy011Fy011Fy011Fy011Fy011Fy011Fy011Fy011Fy011Fy011Fy011Fy011Fy011Fy",
    "031Fy011Fy011Fy0V11CLz011CLz011CLz011CLz011CLz011CLz011CLz011CLz011CLz011CLz011CLz011CLz01",
    "1CLz011CLz011CLz011CLz011CLz011CLz011CLz011CLz011CLz011CLz011CLz011CLz011CLz011CLz011CLz01",
    "1CLz011CLz011CLz011CLz011CLz011CLz011CLz011CLz011CLz011CLz011CLz011CLz011CLz011CLz011CLz01",
    "1CLz011CLz011CLz011CLz011CLz011CLz011CLz011CLz011CLz011CLz011CLz011CLz011CLz011CLz011CLz01",
    "1CLz011CLz011CLz011CLz011CLz011CLz011CLz011CLz011CLz011CLz011CLz011CLz011CLz011CLz011CLz01",
    "1CLz011CLz011CLz011CLz011CLz011CLz011CLz011CLz011g11g11g11g11g11gCM41CFA841HOch1CFDgDj1121",
    "121121121121121121121121121121121121121121121121121121121121121121121121121121121121121121",
    "1211211211211211211211211211211211211211211211211221Dk211211211211211211211211211211211211",
    "211211211211211211211211211211211211211211c11211211211211211211211211211211211211211211211",
    "211211211211211211211211211211211211211211211211211211211211211211211211211211211211211211",
    "21121111g11g11g11g11g11g11g11g91g11g11g11g11g11gb1g11g11g11g11g11g11g11g91g11g11g11g11g11g",
    "11g11g91g11g11g11g11g11gc1g21g21g21g91g11g11g11g11g11g11g11g91Ek11Ek11Fc11Fc11Fc11Fc11G811",
    "G811I011I011H011H011Hs11Hs31g11g11g11g11g11g11g11g91g11g11g11g11g11g11g11g91g11g11g11g11g1",
    "1g11g11g91g11g21ig1id1g11gf1g11g41ee1iKr1BnB21v11v11v11v11v11v11v11v11v11v11v11v11v11v11v1",
    "1v511wc1Bj11Bj11Bj11Bj11Bj11Bj11Bj11Bj11Bj11Bj11Bj11Bj11Bj11Bj11Bj11Bj11Bj11Bj11Bj11Bj11Bj",
    "11Bj11Bj11Bj11Bj11BjBw71Cv11Cv11Cv11Cv11Cv11Cv11Cv11Cv11Cv11Cv11Cv11Cv11Cv11Cv11Cv11Cv11Cv",
    "11Cv11Cv11Cv11Cv11Cv11Cv11Cv11Cv11Cv11Cv11Cv11Cv11Cv11Cv11Cv11Cv11Cv11Cv11Cv11Cv11Cv11Cv11",
    "Cv11Cv11Cv11Cv11Cv11Cv11Cv11Cv11Cv21141VCl11VCf211211211711311b112112112112112112112112112",
    "112112112112112112112112112112112112112112112112112112112112112112112112112112112112112112",
    "11211211211211211211211211211211911211511d1OFv11OFv11OFv11OFv11OFv11OFv11OFv11OFv11OFv11OF",
    "v11OFv11OFv11OFv11OFv11OFv11OFv11OFv11OFv11OFv11OFv11OFv11OFv11OFv11OFv11OFv11OFv11OFv11OF",
    "v11OFv11OFv11OFv11OFv11OFv11OFv11OFv11OFv11OFv11OFv21OFv61OFv+Ik1121121121121122CEy5121121",
    "1211211211211211211211211211211211211211211211k11211211211211211211211211211211211211211E8",
    "112112112112112112114112112112112112112112112112112112112112112112112112112112112112112112",
    "11211211211211211211211b1121131121121121121151151121111D0311211211211211211211211211211c11",
    "211211211211211211211511211711611211t11wt1BZvU-e1Bv11Bv11Bv11Bv11Bv11Bv11Bv11Bv11Bv11Bv11B",
    "v11Bv11Bv11Bv11Bv11Bv11Bv11Bv11Bv11Bv11Bv11Bv11Bv11Bv11Bv11BvBGe1Cf11Cf11Cf11Cf11Cf11Cf11C",
    "f11Cf11Cf11Cf11Cf11Cf11Cf11Cf11Cf11Cf11Cf11Cf11Cf11Cf11Cf11Cf11Cf11Cf11Cf11Cf11Cf11Cf11Cf1",
    "1Cf11Cf11Cf11Cf11Cf11Cf11Cf11Cf11Cf11Cf11CfE91Cf11Cf11Cf11Cf11Cf11Cf11Cf11Cf11Cf11Cf11Cf11",
    "Cf11Cf11Cf11Cf11Cf11Cf11Cf11Cf11Cf11Cf11Cf11Cf11Cf11Cf11Cf11Cf11Cf11Cf11Cf11Cf11Cf11Cf11Cf",
    "11Cf11CfEs1Cd11Cd11Cd11Cd11Cd11Cd11Cd11Cd11Cd11Cd11Cd21Cd11Cd11Cd11Cd11Cd11Cd11Cd11Cd11Cd1",
    "1Cd11Cd11Cd11Cd11Cd11Cd21Cd11Cd11Cd11Cd11Cd11Cd11Cd21Cd11CdBY41Dv11Dv11Dv11Dv11Dv11Dv11Dv1",
    "1Dv11Dv11Dv11Dv11Dv11Dv11Dv11Dv11Dv11Dv11Dv11Dv11Dv11Dv11Dv11Dv11Dv11Dv11Dv11Dv11Dv11Dv11D",
    "v11Dv11Dv11Dv11Dv11Dv11Dv11Dv11Dv11Dv11Dv11Dv11Dv11Dv11Dv11Dv11Dv11Dv11Dv11Dv11Dv11DvC+e1B",
    "v11Bv11Bv11Bv11Bv11Bv11Bv11Bv11Bv11Bv11Bv11Bv11Bv11Bv11Bv11Bv11Bv11Bv11Bv11Bv11Bv11Bv11Bv1",
    "1Bv11Bv11Bv11Bv11Bv11Bv11Bv11Bv11BvVM11Bv11Bv11Bv11Bv11Bv11Bv11Bv11Bv11Bv11Bv11Bv11Bv11Bv1",
    "1Bv11Bv11Bv11Bv11Bv11Bv11Bv11Bv11Bv11Bv11Bv11Bv11Bv11Bv11Bv11Bv11Bv11Bv11Bv+V31C311C311C31",
    "1C311C311C311C311C311C311C311C311C311C311C311C311C311C311C311C311C311C311C311C311C311C311C",
    "311C311C311C311C311C311C311C311C3
"]

/-- Signed distances, the even numbers for increases and the odd ones for decreases, added to a
code point. -/
def shifted (target : Nat) (shift : Nat) : Nat :=
  if shift % 2 = 0 then target + shift / 2 else target - (shift + 1) / 2

/-- The sets of characters that are folded to the same, after a code point. -/
def classesFrom (fuel target : Nat) (numbers : List Nat) : List (List Nat) :=
  match fuel, numbers with
  | fuel + 1, gap :: count :: rest =>
    let target := target + gap
    (target :: (rest.take count).map (shifted target)) :: classesFrom fuel target (rest.drop count)
  | _, _ => []

/-- The sets of characters that are folded to the same, without those of one character. -/
def classes : List (List Nat) :=
  let numbers := CodeRanges.numbers table
  classesFrom numbers.length 0 numbers

/-- A set of code points with all that differ from one of them in case only. -/
def close (ranges : CodeRanges) : CodeRanges :=
  let added := (classes.filter fun c => c.any ranges.contains).flatten
  ranges.union (added.map fun n => (n, n))

end LanguageHost.Text.Folding
