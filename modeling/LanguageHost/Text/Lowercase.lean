import LanguageHost.Text.CodeRanges

/-!
# Lower case

The full lower-case mapping of Unicode.  Two characters are special: U+0130 becomes an `i` and a
combining dot, and a capital sigma becomes the final small sigma at the end of a word.
-/

namespace LanguageHost.Text

/-- The code points beyond ASCII with a simple lower-case mapping, in compact notation. -/
def lowercaseTable : String :=
  String.join [
    "G0C01C01C01C01C01C01C01C01C01C01C01C01C01C01C01C01C01C01C01C01C01C01C02C01C01C01C01C01C01C0B",
    "22222222222222222222222222222222222222222222222242222232222222222222223222222222222222222222",
    "2222222222222222222222222Hh1222224N412222Ms122Mq1Mq123Eu1Mk1Mm122Mq1Mu2N61N2124N61Na2Nc12222",
    "22Nk122Nk322Nk122Ni1Ni12222Nm124284122412241222222222222222223222222222222222223412222G11Df1",
    "2222222222222222222222222222222222222222I32222222222222222228VCm122K51VCg322M51Ea1Ee12222222",
    "22J2222429H87Cc2Ca1Ca1Ca2E02Du1Du2C01C01C01C01C01C01C01C01C01C01C01C01C01C01C01C01C02C01C01C",
    "01C01C01C01C01C01C0B4g9222222222222222222222226Dn322d123I31I31I31F01F01F01F01F01F01F01F01F01",
    "F01F01F01F01F01F01F01C01C01C01C01C01C01C01C01C01C01C01C01C01C01C01C01C01C01C01C01C01C01C01C0",
    "1C01C01C01C01C01C01C01C0Bh222222222222222222222222222222222a22222222222222222222222222222222",
    "2222222222222222222222u122222222222223222222222222222222222222222222222222222222222222222222",
    "222222222222222222222222222222222222222223D01D01D01D01D01D01D01D01D01D01D01D01D01D01D01D01D0",
    "1D01D01D01D01D01D01D01D01D01D01D01D01D01D01D01D01D01D01D01D01D0CwaOG01OG01OG01OG01OG01OG01OG",
    "01OG01OG01OG01OG01OG01OG01OG01OG01OG01OG01OG01OG01OG01OG01OG01OG01OG01OG01OG01OG01OG01OG01OG",
    "01OG01OG01OG01OG01OG01OG01OG01OG02OG06OG0WjCLz01CLz01CLz01CLz01CLz01CLz01CLz01CLz01CLz01CLz0",
    "1CLz01CLz01CLz01CLz01CLz01CLz01CLz01CLz01CLz01CLz01CLz01CLz01CLz01CLz01CLz01CLz01CLz01CLz01C",
    "Lz01CLz01CLz01CLz01CLz01CLz01CLz01CLz01CLz01CLz01CLz01CLz01CLz01CLz01CLz01CLz01CLz01CLz01CLz",
    "01CLz01CLz01CLz01CLz01CLz01CLz01CLz01CLz01CLz01CLz01CLz01CLz01CLz01CLz01CLz01CLz01CLz01CLz01",
    "CLz01CLz01CLz01CLz01CLz01CLz01CLz01CLz01CLz01CLz01CLz01CLz01CLz01CLz01CLz01g1g1g1g1g1gCErFxv",
    "1Fxv1Fxv1Fxv1Fxv1Fxv1Fxv1Fxv1Fxv1Fxv1Fxv1Fxv1Fxv1Fxv1Fxv1Fxv1Fxv1Fxv1Fxv1Fxv1Fxv1Fxv1Fxv1Fxv",
    "1Fxv1Fxv1Fxv1Fxv1Fxv1Fxv1Fxv1Fxv1Fxv1Fxv1Fxv1Fxv1Fxv1Fxv1Fxv1Fxv1Fxv1Fxv1Fxv3Fxv1Fxv1FxvK122",
    "22222222222222222222222222222222222222222222222222222222222222222222222222222222222222222222",
    "2222222222222222222222222222222222222222222222222222222aOxt222222222222222222222222222222222",
    "222222222222222222222222222222222222222222222222222222222222222af1f1f1f1f1f1f1f9f1f1f1f1f1fb",
    "f1f1f1f1f1f1f1f9f1f1f1f1f1f1f1f9f1f1f1f1f1fcf2f2f2f9f1f1f1f1f1f1f1fpf1f1f1f1f1f1f1f9f1f1f1f1",
    "f1f1f1f9f1f1f1f1f1f1f1f9f1f1Ej1Ej1hcFb1Fb1Fb1Fb1hcf1f1G71G7df1f1Gv1Gv1dcHv1Hv1Hr1Hr1hJaOVp4Q",
    "Lt1QEb7BoBeB01B01B01B01B01B01B01B01B01B01B01B01B01B01B01B0k2ZjBk1Bk1Bk1Bk1Bk1Bk1Bk1Bk1Bk1Bk1",
    "Bk1Bk1Bk1Bk1Bk1Bk1Bk1Bk1Bk1Bk1Bk1Bk1Bk1Bk1Bk1BkBZhD01D01D01D01D01D01D01D01D01D01D01D01D01D01",
    "D01D01D01D01D01D01D01D01D01D01D01D01D01D01D01D01D01D01D01D01D01D01D01D01D01D01D01D01D01D01D0",
    "1D01D01D0Bh22U-d1HOb1U+d3222222VBn1U-p1VBt1VBr22329VDt1VDt1222222222222222222222222222222222",
    "222222222222222222222222222222222222222222222222222222222222222222922252+Ke22222222222222222",
    "2222222222222222222222222222k222222222222222222222222222E82222222222222422222222222222222222",
    "22222222222222222222222222222222222222222b2222CFA71222222222522CSSf3222422222222222222222222",
    "CSU71CSUt1CSUl1CSU11CSU72CSR31CSSj1CSR91Bw012222222222222222Cv1CSU51CFDf1222726222t2VZcC01C0",
    "1C01C01C01C01C01C01C01C01C01C01C01C01C01C01C01C01C01C01C01C01C01C01C01C0BG6Cg1Cg1Cg1Cg1Cg1Cg",
    "1Cg1Cg1Cg1Cg1Cg1Cg1Cg1Cg1Cg1Cg1Cg1Cg1Cg1Cg1Cg1Cg1Cg1Cg1Cg1Cg1Cg1Cg1Cg1Cg1Cg1Cg1Cg1Cg1Cg1Cg1C",
    "g1Cg1Cg1CgE9Cg1Cg1Cg1Cg1Cg1Cg1Cg1Cg1Cg1Cg1Cg1Cg1Cg1Cg1Cg1Cg1Cg1Cg1Cg1Cg1Cg1Cg1Cg1Cg1Cg1Cg1Cg",
    "1Cg1Cg1Cg1Cg1Cg1Cg1Cg1Cg1CgEtCe1Ce1Ce1Ce1Ce1Ce1Ce1Ce1Ce1Ce1Ce2Ce1Ce1Ce1Ce1Ce1Ce1Ce1Ce1Ce1Ce1",
    "Ce1Ce1Ce1Ce1Ce2Ce1Ce1Ce1Ce1Ce1Ce1Ce2Ce1CeBXbE01E01E01E01E01E01E01E01E01E01E01E01E01E01E01E01",
    "E01E01E01E01E01E01E01E01E01E01E01E01E01E01E01E01E01E01E01E01E01E01E01E01E01E01E01E01E01E01E0",
    "1E01E01E01E0C-eC01C01C01C01C01C01C01C01C01C01C01C01C01C01C01C01C01C01C01C01C01C01C01C01C01C0",
    "1C01C01C01C01C01C0VM1C01C01C01C01C01C01C01C01C01C01C01C01C01C01C01C01C01C01C01C01C01C01C01C0",
    "1C01C01C01C01C01C01C01C0+V1C41C41C41C41C41C41C41C41C41C41C41C41C41C41C41C41C41C41C41C41C41C4",
    "1C41C41C41C41C41C41C41C41C41C41C41C4"]

/-- The code points with the property `Cased`, in compact notation. -/
def casedTable : String :=
  String.join [
    "C1p6pBf0a0405m1u1G2134Gf1B371u4D00Ba32123106012101j1Ci1Ea8F51B59B8CYnB510502Ba13V0Cl25CE287B",
    "a22C0FvC0Il252B525271010101u2Bk1610321633254c5216Dk0d0gcD5040291034601010131540235440hv31ZhB",
    "jBYmH46331cB51050+IiBditE4D5331Bq511014o412ZlBa1d6CfTw06c4BA9p6pBF5CfD0B34B3Dka1e16111a1e161",
    "1O30221B918BG5BidBiCzdBvVL0BvZM0Ck1C6112021231b10161C01327161r131410361Kj2o1o1u1o1u1o1u1o1u1",
    "o17BZk91j65I5BtCEiC3B-cp6p6p"]

/-- The code points with the property `Case_Ignorable`, in compact notation. -/
def caseIgnorableTable : String :=
  String.join [
    "B7060b0B3010C7040104021PnFv41409110Hr6Gf050BhBc10111110Bc0b5aa10B30akg0D571913B1010uqCraBqa4",
    "020onBb2Bc07167B9BpBn010474036a1d0f0Bq04380k1q021Bp041412230u130b1Bp0441140k1m510Bq020138071",
    "b1u0Bt0c0Bi030Bn012521371b1t0Bq0206051k1s1Bp14380k1t0C807210Cq026b8D20289016C91r01010Bnd1411",
    "5a1B390D63151121p142g3d02160f0Cu0T02zi2t1u1u1C0116802a3050Bd4Bj0C11B20Dm2419062Gr120Bq016101",
    "0276920B708uBh3Bg0141050B88c1B032112Bo0113012Bq721C05Ci21c16406031BiBud0B2D4Nt012b2d2d2d1c48",
    "1a02024Bh41910d0gcBjB0Cyb1Dh2Dt0f0D0vBf0Ol0B433450Ct5Ct2xYm0BH25Ie0D231910s3Cg1eB1Ce0n2D7231",
    "803040p150En1qhd0B67paBe2Bg02321h0l1C252121c080B30b0Bj012215110r0e15110D4492Dp02040TZg0EjgRt",
    "f30cfB2020F907060b0B3010Bf0Bd1C30l2Q10H20El4BA551B918S621153B8240F51Rt3M31Cg2C6aBh3Dr0BmeB90",
    "21a2Bh3212040a0Bi2B4417Bu0c1Bk8a320Cv220116020Et037l1Bp130B5634G372210n0Ck5104111He36111r1Cl",
    "72011Da0102510D522314I3811I011040Eg32140B09B8523809522Bec11Mm61510Cil261111Dq530111610C81301",
    "0Kr1b1Bk45010FHdg6eNUq4Br693BAb0BvgC0111QAb31611DEu113ESsBd2mR029f26u3Ek2BzrBm4Bh80e0m41eBKg",
    "61g2611145BtB10F0dLg0Bt3Pr4-06Dd7CVf4YDA10uCvE0Hf"]

/-- The code points beyond ASCII with a simple lower-case mapping, and how far away it is. -/
def lowercaseShifts : List (Nat × Int) :=
  CodeRanges.shiftsFrom 0 (CodeRanges.numbers lowercaseTable)

/-- The code points with the property `Cased`. -/
def cased : CodeRanges := .ofCompact casedTable

/-- The code points with the property `Case_Ignorable`. -/
def caseIgnorable : CodeRanges := .ofCompact caseIgnorableTable

/-- The lower case of a character by itself. -/
def lowerChar (c : Char) : List Char :=
  if c.toNat < 0x80 then [c.toLower]
  else if c.toNat = 0x130 then ['i', Char.ofNat 0x307]
  else
    match lowercaseShifts.find? fun s => s.1 = c.toNat with
    | some (code, shift) => [Char.ofNat (code + shift).toNat]
    | none => [c]

/-- Whether the first character that is not case-ignorable is a cased one. -/
def meetsCased (cs : List Char) : Bool :=
  match cs.dropWhile fun c => caseIgnorable.contains c.toNat with
  | [] => false
  | c :: _ => cased.contains c.toNat

/-- The lower case of characters, given those in front of them, the nearest first. -/
def lowerFrom : List Char → List Char → List Char
  | _, [] => []
  | before, c :: rest =>
    let lower :=
      if c = 'Σ' then
        if meetsCased before && !meetsCased rest then ['ς'] else ['σ']
      else lowerChar c
    lower ++ lowerFrom (c :: before) rest

/-- The lower case of a text. -/
def lower (s : String) : String := String.ofList (lowerFrom [] s.toList)

end LanguageHost.Text
