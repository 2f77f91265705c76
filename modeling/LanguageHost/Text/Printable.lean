import LanguageHost.Text.CodeRanges

/-!
# Characters that are shown as they are

A character is printable unless it is unassigned, a control or format character, a surrogate, for
private use, or a separator other than the space.  A combining character, one with the property
`Grapheme_Extend`, would be drawn on top of the character before it.
-/

namespace LanguageHost.Text

/-- The code points that are not printable, in compact notation. -/
def unprintableTable : String :=
  String.join [
    "0vCvB1c0Wa1637010k0Md0B61Bi130Bn7r36gm0G00Bg1Br1D5dBr1Bh1f0s110b4v8Ca0F108121m07012419121471",
    "32051p1306321m07020202110532132164016h9309030m0702051a030311e41c670308121m070205191213633205",
    "1i9206230422010222232c3523041151dl4d030n0g190304620311141a6m030n0a051903046252041a03bd030Bj0",
    "3063g1q030i2o090117213601085a13bBq3tB4201050o010n1501070a14vC80B43B70B40f0dB4G601411Lp041701",
    "041B9041B1041701041f0Bp041C31B02q5Cm161U00s2Cp6m8o8kbd0302bCu1a5a5e0b5Cp6Bb4C69v0c3c312Ba15a",
    "Bc3q5b2Bu1C10t1b5a5e1vBgCd2Bf0Dk7Bs2f2Bs6Bb1b7Bb4Qm161B616180101010v1Bl0f0e160j1309go7Bfg21r",
    "0d2B1eB1eEc3UnobkBYk1B00Kt4Bd01411Bo62do87070707070707070DuB1q0CpbGmpc4Bv0Cm1D74Bb0Cu0CkbBf0",
    "yTd2Bn8KsjFo7Gb420105nBr2a5Bo7C67c5Dkau2Ce0b3B10Bn8e1a1D7ns96161687070Bs3Du1a5Kz4bn3BhII3Le1",
    "DaB57b54q050102020DtfNt1Bm61vBa5Bj0j04350E73Fu261616132707c21c0q0j020f1eB1Dr433Bd2Co0d21BeBe",
    "E1t2Bhes3B48u4Bb4u0B53eB9Eu1a5B43B43B87Bkac0f07020b0f0702C2Jn8m98n60Ba09C46110Bc02211n0C879B",
    "fj024B12r41BvBo3k1Bi0248030t133a696C0vB73c8Bm2t1r4q64b7CfC9BmBjcBj6Be7aJ5v0Ba0312CaBb7BalqB5",
    "sjn8Ce3B48Bu05cp6a5Bl0i7B78D00kai0BfBt701040f0b5Br4a5408121m0702050a12131151471725EaCs05tC87",
    "aF5Bm1B6B1C5aa5diBq5aBlr1f3nFoBsD3Cjb81118020u021c8aC581Be1bqC87CjcC96aHl90Bd0e9t2B01m0eC870",
    "20Bc2102097a56020B502066aJlp6h0B92sCl1eBicyrD5Df05aG4CSbD3cBBgfmDz9S7INoRp6v0a3Ch0a5u169C69a",
    "070l4jVfCrD4Cb3Bp6hBv5a2dF-o7BGmB99IX6407020J3e1s311d47McCI3Db4d296a14ESvBe1n8DkBrHm9B71Ca7D",
    "gkC6DpkbkbCn8pE6Cl0C7021112140c01070C10418070s040501270Kk1J41Vue50fBCfv56Gk70h1702054BuB01Df",
    "Bd2e1a32JvvgBq41OfBaX5704020f0G51gB8Cc3a32YgC4CbBtG140r0201110a04010151310101030201110101010",
    "1020114070404010a0h43050hBj2IdBc3D4bf1f0f0B59FeBntcBc3962d6Ep+o3h2d2Dn3Cv5c31ec3Bo7a5B87u12C",
    "dKkbe1d296Be077e39696Ej0BnB4aBA5BJX0vEBq5Gu1FU2dHJhDAuQuBP1Ewb4ED0VXKfHgF-Qf"]

/-- The code points with the property `Grapheme_Extend`, in compact notation. -/
def combiningTable : String :=
  String.join [
    "Y0DfIj6I7Bc10111110C8aBgkg0D56252113B30uqCraBq890o3181214Bb2Bs7Ban1vBn010474036a1t0Bq0102380",
    "90a1q021Bp041412230u130b1Bp0441140k1m510Bq011138072a1u0Br010c090B8030Bn012521371b1t0Bq020203",
    "05171b1s1Bp110238090a1t0C8040221080Ch026c7D2028b6C91r01010Bnd14115a1B390D63151121p142g3d0216",
    "0f0Vv2zi2t1u1u1C0116802a90Bd210Dl1B20Dm2419062Gr120Bq0161010276920BguBh3Bg61050B88c1B032112B",
    "o0113012Bq721Eo21c16406031G6BvQc0G3B0C-u2Ed0D0vRa5D91zOk319B01Cg1Ig03040p150En1qhd0B67paBe2B",
    "g02321B70C352121c080Bf0Bj012215110Ba180He02040TZg0X1fgfLe1St0H20El4BU621153B8240F51Rt3M31Cg2",
    "C6aBh3Dr0BmeB9021a2Bh32170Bt2B4417Bu0c1Bk8a320Cv220116020Et037l1Bp11010m0e634G372210n0Ch0251",
    "0201111Hb0236111r1Cl72011Da0102510D522314I3811Hl0a11040Eg32140B09B8523809522Bec11Mm61510Cil2",
    "61111Dq530111610C813010Kr1b1Bk45010FHt06eNUq4Br6BAo0Bv3Ch0TFo1ET1Bd2mQu012448726u3Ek2BzrBm4B",
    "h80e0m41eBKg61g261114D40F06Ln0Bt3Ps3-06Dd6YFWlCvE0Hf"]

/-- The code points that are not printable. -/
def unprintable : CodeRanges := .ofCompact unprintableTable

/-- The code points with the property `Grapheme_Extend`. -/
def combining : CodeRanges := .ofCompact combiningTable

/-- Whether a character is shown as it is. -/
def isPlain (c : Char) : Bool :=
  if c.toNat < 0x7F then 0x20 ≤ c.toNat
  else !unprintable.contains c.toNat && !combining.contains c.toNat

end LanguageHost.Text
