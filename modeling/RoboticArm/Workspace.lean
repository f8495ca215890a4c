import RoboticArm.Replay
import RoboticArm.Samples
import Mathlib.Analysis.Real.Pi.Bounds

/- The reach of the grid search.

   A target asks for a height `Z + 2 * A5 - A1` over the shoulder and a horizontal reach
   `√((X + P)² + Y²)` (`needed`). The grid triples give points of that plane with the
   squared length at most `(A2 + A3 + A4)²`, so a target with a longer vector, by more
   than the two tolerances, has no passing triple (`not_passes_of_far`). The corner
   (25, 41, 50) of the coordinate box is such a target.

   Every target of the box whose vector is no longer than the three links has one
   (`exists_passing`). This is checked by computation: `rows` divides the heights from 13
   to 53 into strips and gives for each strip grid triples whose squares of half width
   0.99 cover it up to the reach of the arm; `turns` holds the cosine and sine of the
   multiples of 0.1 as fixed-point numbers, with their error bounded in `Samples`. -/
namespace RoboticArm

open Samples

/-! ## Cosine and sine of the multiples of 0.1 -/

/-- The units of `turns`. -/
def unit : Int := 10 ^ 7

/-- The angle 0.1. -/
def tenth : Turn := ⟨9950041, 998334⟩

/-- The multiples of the angle 0.1 up to 8.2. -/
def turns : List Turn := [
  ⟨10000000, 0⟩, ⟨9950041, 998334⟩, ⟨9800664, 1986692⟩, ⟨9553362, 2955200⟩, ⟨9210606, 3894180⟩,
  ⟨8775821, 4794251⟩, ⟨8253351, 5646419⟩, ⟨7648416, 6442170⟩, ⟨6967061, 7173552⟩,
  ⟨6216094, 7833259⟩, ⟨5403018, 8414698⟩, ⟨4535957, 8912060⟩, ⟨3623574, 9320376⟩,
  ⟨2674986, 9635566⟩, ⟨1699670, 9854480⟩, ⟨707372, 9974931⟩, ⟨-291994, 9995716⟩,
  ⟨-1288442, 9916627⟩, ⟨-2272016, 9738454⟩, ⟨-3232889, 9462978⟩, ⟨-4161460, 9092951⟩,
  ⟨-5048450, 8632070⟩, ⟨-5884998, 8084941⟩, ⟨-6662745, 7457030⟩, ⟨-7373920, 6754610⟩,
  ⟨-8011417, 5984701⟩, ⟨-8568866, 5154995⟩, ⟨-9040698, 4273782⟩, ⟨-9422198, 3349866⟩,
  ⟨-9709555, 2392480⟩, ⟨-9899897, 1411189⟩, ⟨-9991322, 415798⟩, ⟨-9982917, -583747⟩,
  ⟨-9874766, -1577460⟩, ⟨-9667950, -2555411⟩, ⟨-9364535, -3507829⟩, ⟨-8967553, -4425198⟩,
  ⟨-8480970, -5298352⟩, ⟨-7909648, -6118567⟩, ⟨-7259295, -6877647⟩, ⟨-6536410, -7568008⟩,
  ⟨-5748215, -8182752⟩, ⟨-4902586, -8715736⟩, ⟨-4007972, -9161635⟩, ⟨-3073312, -9515994⟩,
  ⟨-2107945, -9775273⟩, ⟨-1121516, -9936881⟩, ⟨-123881, -9999203⟩, ⟨874992, -9961616⟩,
  ⟨1865122, -9824496⟩, ⟨2836616, -9589213⟩, ⟨3779768, -9258118⟩, ⟨4685154, -8834519⟩,
  ⟨5543727, -8322648⟩, ⟨6346909, -7727620⟩, ⟨7086675, -7055381⟩, ⟨7755633, -6312647⟩,
  ⟨8347099, -5506839⟩, ⟨8855164, -4646009⟩, ⟨9274751, -3738757⟩, ⟨9601668, -2794149⟩,
  ⟨9832648, -1821623⟩, ⟨9965383, -830896⟩, ⟨9998548, 168133⟩, ⟨9931810, 1165482⟩,
  ⟨9765837, 2151185⟩, ⟨9502287, 3115394⟩, ⟨9143794, 4048475⟩, ⟨8693939, 4941105⟩,
  ⟨8157217, 5784365⟩, ⟨7538991, 6569829⟩, ⟨6845438, 7289649⟩, ⟨6083488, 7936633⟩,
  ⟨5260754, 8504317⟩, ⟨4385456, 8987029⟩, ⟨3466341, 9379945⟩, ⟨2512591, 9679140⟩,
  ⟨1533736, 9881624⟩, ⟨539557, 9985374⟩, ⟨-460013, 9989353⟩, ⟨-1454986, 9893522⟩,
  ⟨-2435421, 9698838⟩, ⟨-3391522, 9407247⟩]

theorem turns_chain : turns.IsChain (fun s t => t = Turn.next unit tenth s) := by decide +kernel

def turnAt (n : Nat) : Turn := turns.getD n ⟨0, 0⟩

theorem turnAt_eq : ∀ {n : Nat}, n ≤ 82 → turnAt n = (Turn.next unit tenth)^[n] (Turn.one unit)
  | 0, _ => rfl
  | n + 1, h => by
    have hlen : turns.length = 83 := rfl
    have hn : n + 1 < turns.length := by omega
    have hlink := List.isChain_iff_getElem.1 turns_chain n (by omega)
    have ih : turnAt n = _ := turnAt_eq (n := n) (by omega)
    rw [turnAt, ← List.getElem_eq_getD (h := by omega)] at ih
    rw [Function.iterate_succ_apply', ← ih, turnAt, ← List.getElem_eq_getD (h := hn)]
    exact hlink

theorem norm_tenth_le : ‖tenth.toComplex unit‖ ≤ 1 := by
  rw [← sq_le_one_iff₀ (norm_nonneg _), Complex.sq_norm, Complex.normSq_apply]
  norm_num [Turn.toComplex, tenth, unit]

theorem norm_tenth_sub_le :
    ‖tenth.toComplex unit - Complex.exp ((1 / 10 : ℝ) * Complex.I)‖ ≤ 3 / 10 ^ 7 := by
  have hseries : ‖Complex.exp ((1 / 10 : ℝ) * Complex.I) -
      (⟨1 - 1 / 200 + 1 / 240000, 1 / 10 - 1 / 6000⟩ : ℂ)‖ ≤ 1 / 10 ^ 7 := by
    have hx : ‖((1 / 10 : ℝ) * Complex.I : ℂ)‖ = 1 / 10 := by
      rw [norm_mul, Complex.norm_I, Complex.norm_real, mul_one]
      norm_num
    have hsum : ∑ m ∈ Finset.range 5, ((1 / 10 : ℝ) * Complex.I : ℂ) ^ m / m.factorial =
        (⟨1 - 1 / 200 + 1 / 240000, 1 / 10 - 1 / 6000⟩ : ℂ) := by
      apply Complex.ext <;>
        norm_num [Finset.sum_range_succ, Nat.factorial, mul_pow, pow_succ]
    -- the first five terms of the exponential series
    have hbound := Complex.exp_bound (x := ((1 / 10 : ℝ) * Complex.I : ℂ)) (by rw [hx]; norm_num)
      (n := 5) (by norm_num)
    rw [hsum, hx] at hbound
    exact hbound.trans (by norm_num [Nat.factorial])
  have hround : ‖tenth.toComplex unit - (⟨1 - 1 / 200 + 1 / 240000, 1 / 10 - 1 / 6000⟩ : ℂ)‖ ≤
      2 / 10 ^ 7 := by
    refine (Complex.norm_le_abs_re_add_abs_im _).trans ?_
    norm_num [Turn.toComplex, tenth, unit, abs_of_nonneg, abs_of_nonpos]
  calc ‖tenth.toComplex unit - Complex.exp ((1 / 10 : ℝ) * Complex.I)‖
      ≤ 2 / 10 ^ 7 + 1 / 10 ^ 7 := by
        refine (norm_sub_le_norm_sub_add_norm_sub _ _ _).trans (add_le_add hround ?_)
        rw [norm_sub_rev]
        exact hseries
    _ = 3 / 10 ^ 7 := by norm_num

/-- The error of `turns` at the multiple `n`. -/
theorem norm_turnAt_sub_le {n : Nat} (h : n ≤ 82) :
    ‖(turnAt n).toComplex unit - Complex.exp ((n * (1 / 10) : ℝ) * Complex.I)‖ ≤ 1 / 20000 := by
  have hbound := Turn.norm_turn_sub_le (by decide) norm_tenth_le norm_tenth_sub_le n
  rw [← turnAt_eq h] at hbound
  refine hbound.trans ?_
  have hn : (n : ℝ) ≤ 82 := by exact_mod_cast h
  calc (n : ℝ) * (3 / 10 ^ 7 + 2 / (unit : ℤ)) ≤ 82 * (3 / 10 ^ 7 + 2 / (unit : ℤ)) := by
        gcongr
        norm_num [unit]
    _ ≤ 1 / 20000 := by norm_num [unit]

theorem abs_cos_sub_le {n : Nat} (h : n ≤ 82) :
    |Real.cos (n * (1 / 10)) - (turnAt n).c / 10000000| ≤ 1 / 20000 := by
  have hre := (Complex.abs_re_le_norm _).trans (norm_turnAt_sub_le h)
  rw [Complex.sub_re, Complex.exp_ofReal_mul_I_re, abs_sub_comm] at hre
  simpa [Turn.toComplex, unit] using hre

theorem abs_sin_sub_le {n : Nat} (h : n ≤ 82) :
    |Real.sin (n * (1 / 10)) - (turnAt n).s / 10000000| ≤ 1 / 20000 := by
  have him := (Complex.abs_im_le_norm _).trans (norm_turnAt_sub_le h)
  rw [Complex.sub_im, Complex.exp_ofReal_mul_I_im, abs_sub_comm] at him
  simpa [Turn.toComplex, unit] using him

/-! ## The strips -/

/-- The heights between two bounds, in hundredths, with the codes `10000 i + 100 j + k` of
the grid triples `(-π/2 + i/10, j/10, k/10)` that cover it, by growing reach. -/
structure Row where
  lo : Int
  hi : Int
  first : Nat
  rest : List Nat

/-- The heights from 13 to 53. -/
def rows : List Row := [
  ⟨1300, 1425, 52220, [
    12415, 2513, 42315, 62216, 62215, 52312, 12704, 32604, 111916, 82209, 72403, 92206, 112009,
    102203, 112104, 151613, 131906, 161513, 141806, 151707, 210920, 161607, 181311, 230620, 210915,
    230617, 201109]⟩,
  ⟨1425, 1500, 2415, [
    52219, 72120, 72119, 92020, 32411, 92017, 82114, 52407, 121817, 92110, 72402, 82400, 102106,
    121909, 112103, 122004, 151611, 191118, 151706, 151801, 201016, 171506, 171601, 181405, 210912,
    260118]⟩,
  ⟨1500, 1600, 2415, [
    42218, 42217, 12413, 52216, 52215, 42312, 62213, 32506, 92014, 131719, 62500, 92109, 82303,
    92204, 102106, 112007, 121908, 131809, 122003, 131904, 181216, 161510, 151705, 220720, 161701,
    171505, 171601, 181404, 240417]⟩,
  ⟨1600, 1700, 32218, [
    62120, 62119, 82020, 22411, 82017, 72114, 22700, 101916, 72209, 62403, 82206, 111911, 92300,
    141614, 121907, 161415, 141708, 171314, 141900, 161508, 210818, 161700, 181308, 250220, 191207,
    240416]⟩,
  ⟨1700, 1810, 52120, [
    32216, 22314, 12411, 32312, 2606, 32408, 111819, 32601, 52404, 92011, 72400, 82301, 102008,
    111909, 102200, 112101, 122002, 131806, 141707, 171313, 200918, 161507, 161603, 230519, 230518,
    230517, 191206]⟩,
  ⟨1810, 1915, 42118, [
    12314, 32215, 52116, 42213, 2605, 62113, 91916, 62209, 121718, 62401, 111813, 92106, 92202,
    102103, 112004, 141611, 191020, 191019, 161411, 191016, 161506, 200915, 220617, 191109, 210812]⟩,
  ⟨1915, 2020, 2314, [
    22215, 42116, 81920, 81919, 32310, 101819, 22601, 101817, 72110, 131620, 62304, 82107, 121714,
    92105, 102006, 161318, 112003, 121904, 171216, 151510, 141705, 210720, 171310, 161505, 161601,
    171405, 200912, 181401, 191204]⟩,
  ⟨2020, 2135, 52019, [
    22214, 42115, 32213, 62016, 2603, 81916, 52209, 111718, 52402, 91912, 72205, 92008, 101909,
    92200, 102101, 112002, 121903, 161314, 141608, 171214, 141800, 151604, 151700, 171308, 230419,
    171500, 200911, 250118]⟩,
  ⟨2135, 2255, 61920, [
    32115, 12311, 71918, 71917, 12504, 32308, 91817, 62110, 42403, 52401, 101813, 72300, 92007,
    92103, 102004, 131611, 121806, 121902, 190920, 141607, 141703, 171212, 161407, 161503, 240220,
    181207, 181303, 230415]⟩,
  ⟨2255, 2380, 12213, [
    42016, 22212, 52015, 81818, 22405, 42209, 101718, 42402, 52400, 62205, 82008, 111713, 121614,
    101907, 102003, 111904, 121805, 141510, 151411, 181016, 151506, 190915, 230320, 171306, 220516,
    220515, 240216]⟩,
  ⟨2380, 2480, 51918, [
    42015, 2407, 2504, 12502, 71914, 32403, 42401, 91813, 72106, 91909, 82200, 92101, 102002,
    111903, 121804, 141509, 171115, 200719, 151505, 151601, 161405, 210616, 171401, 191008, 210711]⟩,
  ⟨2480, 2590, 32015, [
    51917, 42014, 71818, 12405, 12501, 91718, 32402, 42400, 52302, 101714, 72105, 82006, 91908,
    101809, 92100, 121611, 111806, 121707, 151313, 190820, 131800, 151408, 141700, 161308, 220419,
    240120, 181108, 210614, 181300, 220512]⟩,
  ⟨2590, 2700, 41916, [
    61818, 2405, 2502, 22306, 61913, 101619, 62010, 81813, 62106, 81909, 111614, 91907, 92003,
    101904, 111805, 121706, 171017, 180918, 141507, 141603, 210519, 230220, 171207, 220416, 210613,
    191006]⟩,
  ⟨2700, 2820, 51818, [
    41915, 71719, 12306, 12403, 32207, 61912, 42205, 111519, 52300, 72007, 72103, 101711, 91906,
    101807, 141315, 111804, 121705, 141410, 131702, 200619, 151406, 171110, 240020, 230218, 230217,
    190909, 181202, 240115]⟩,
  ⟨2820, 2920, 61719, [
    2306, 2403, 61815, 22304, 42108, 71813, 52106, 71909, 62201, 81907, 82004, 111611, 101806,
    111707, 141313, 121704, 161114, 131701, 141505, 141601, 200617, 161305, 240019, 240018, 181105,
    220413]⟩,
  ⟨2920, 3035, 61718, [
    2402, 81619, 51912, 32205, 42107, 81714, 52105, 52202, 81810, 101613, 121416, 82003, 91904,
    101805, 131412, 121607, 121703, 180818, 131700, 151308, 210419, 230120, 171108, 220317, 181008,
    210513, 181200, 220412]⟩,
  ⟨3035, 3125, 22011, [
    2305, 41912, 91520, 61813, 42106, 61909, 101516, 62103, 72004, 101612, 91807, 131315, 101804,
    111705, 121606, 131507, 131603, 200519, 220220, 161207, 161304, 230117, 220315, 210512, 230213]⟩,
  ⟨3125, 3225, 2304, [
    22108, 51813, 22301, 91518, 42105, 42202, 71810, 111417, 121318, 91710, 101611, 91806, 101707,
    111608, 121509, 180720, 161015, 190619, 141406, 141503, 200517, 220218, 180910, 171203, 220314,
    210511, 230212]⟩,
  ⟨3225, 3325, 51715, [
    12205, 32009, 22300, 32106, 51909, 91516, 61908, 81711, 101514, 121317, 81904, 91805, 121412,
    111607, 121508, 151114, 121701, 131505, 151210, 141502, 230020, 171009, 190712, 171202, 230115,
    220313, 200708]⟩,
  ⟨3325, 3445, 12204, [
    12301, 22203, 32105, 42007, 61810, 101417, 111318, 81710, 101513, 111414, 121315, 131216,
    111510, 121411, 160918, 121507, 131408, 121700, 141308, 200419, 220120, 210318, 161205, 200514,
    180908, 210413, 181101, 200707]⟩,
  ⟨3445, 3585, 12203, [
    22105, 32007, 32104, 91417, 61809, 81612, 101415, 81709, 91610, 141020, 91707, 101608, 111509,
    121410, 111702, 121506, 141211, 131407, 131503, 210220, 141500, 151304, 190614, 161300, 230016,
    220214, 210412, 230113, 190903]⟩,
  ⟨3585, 3700, 22007, [
    22104, 32006, 32103, 61711, 101318, 52003, 61905, 81611, 101414, 111315, 121216, 101510, 111411,
    150918, 101800, 121409, 111701, 121505, 180618, 131502, 220020, 210218, 170910, 161203, 210314,
    190709, 210411, 190902]⟩,
  ⟨3700, 3815, 22103, [
    32005, 91318, 42004, 71612, 61807, 61904, 131020, 81707, 91608, 101509, 111410, 121311, 131212,
    111700, 131308, 141209, 180616, 200318, 161009, 180712, 161202, 220115, 200511, 220212, 190901,
    200800]⟩,
  ⟨3815, 3925, 81318, [
    32004, 41906, 42003, 61709, 52001, 91414, 101315, 111216, 131019, 140920, 91607, 91704, 131114,
    121310, 131211, 121407, 160815, 151012, 131500, 141304, 200317, 190514, 170908, 200413, 171101,
    190707, 220211, 190900, 200703]⟩,
  ⟨3925, 4040, 91219, [
    101120, 61611, 81414, 52000, 81511, 71707, 81608, 71900, 121116, 131017, 140918, 91703, 150818,
    131113, 141014, 131210, 190320, 160814, 141207, 190416, 210118, 151204, 190513, 210214, 171100,
    210311, 230012, 210408, 230109]⟩,
  ⟨4040, 4175, 51611, [
    71414, 101119, 111020, 81413, 101216, 61901, 121018, 81607, 81704, 150720, 91702, 140916,
    170520, 121308, 180420, 121405, 190319, 131402, 141206, 170713, 190415, 210116, 200314, 180709,
    200411, 180902, 200508, 220209, 200701]⟩,
  ⟨4175, 4300, 101020, [
    71413, 91216, 111019, 120920, 71608, 81509, 121017, 81606, 81703, 140818, 91701, 131014, 140915,
    131111, 190220, 121500, 200119, 160812, 210018, 151105, 190414, 210115, 200313, 220014, 200410,
    220111, 200507, 220208, 230107]⟩,
  ⟨4300, 4400, 101019, [
    110920, 61608, 71510, 111017, 130820, 111115, 121016, 150620, 91603, 91700, 111309, 101601,
    140914, 131110, 121403, 180417, 170614, 141300, 151104, 190413, 161101, 180707, 180804, 220110,
    190800, 210405, 220304]⟩,
  ⟨4400, 4530, 81215, [
    101018, 61607, 91214, 81410, 111016, 120917, 130818, 81701, 101310, 150619, 101407, 160519,
    101600, 170419, 111501, 180318, 131206, 160713, 150910, 141203, 190315, 151103, 200214, 190412,
    210113, 180706, 210210, 190702, 210307, 220206, 220303]⟩,
  ⟨4530, 4655, 51704, [
    71410, 110918, 61800, 71605, 140620, 81603, 81700, 101309, 91601, 130914, 170320, 160518,
    131011, 111500, 190119, 150812, 200018, 160712, 141202, 160809, 151102, 180511, 161002, 180608,
    200310, 180802, 190701, 210306, 220205, 230104]⟩,
  ⟨4655, 4795, 81213, [
    61605, 61702, 91212, 101113, 111014, 120915, 150519, 91600, 160419, 130913, 170319, 190020,
    131010, 121303, 131107, 131204, 200017, 190215, 180413, 151101, 180510, 161001, 180607, 180704,
    220010, 190700, 210305, 220204, 240001]⟩,
  ⟨4795, 4905, 81212, [
    91113, 101014, 110915, 120816, 111013, 120914, 91502, 170220, 160418, 180119, 140812, 160515,
    121302, 170415, 131203, 150810, 170512, 190214, 151100, 200113, 161000, 200211, 170900, 180703,
    220009, 200405, 210304, 220203, 240000]⟩,
  ⟨4905, 5000, 61603, [
    91112, 120717, 110914, 120815, 150419, 120913, 101306, 121010, 160417, 150614, 131008, 180216,
    131202, 180314, 160709, 180411, 170609, 190311, 170706, 200210, 180702, 190505, 200404, 210303,
    230100, 230101]⟩,
  ⟨5000, 5095, 120618, [
    110816, 101013, 110914, 101110, 160220, 150418, 101305, 150516, 140713, 121107, 121204, 190017,
    140908, 160611, 180313, 200014, 180410, 160902, 180508, 200209, 180701, 200306, 200403, 220104,
    230003, 230100]⟩,
  ⟨5095, 5220, 100914, [
    110815, 101012, 110913, 91306, 160219, 150417, 111108, 130812, 180018, 140712, 160415, 121203,
    170315, 190016, 131200, 141004, 180312, 151001, 170607, 170704, 210010, 180700, 190503, 200402,
    210301, 230002]⟩,
  ⟨5220, 5300, 120617, [
    110814, 120715, 160119, 120813, 160218, 120910, 140614, 121008, 170216, 121202, 170314, 150709,
    170412, 190113, 151000, 190211, 160900, 190308, 180603, 190502, 220005, 220102, 230001]⟩]

/-- A number of hundredths in the units of the checks, 2 * 10 ^ 7 to the length 1. -/
def hundredths (n : Int) : Int := n * 200000

/-- 0.99, which leaves 0.01 of the tolerance to the rounding of `turns`. -/
def slack : Int := hundredths 99

/-- The three angle sums of a code, in tenths. -/
def sums (code : Nat) : Nat × Nat × Nat :=
  let i := code / 10000
  let j := code / 100 % 100
  let k := code % 100
  (i, i + j, i + j + k)

/-- The height of the triple over the shoulder. -/
def heightAt (code : Nat) : Int :=
  48 * (turnAt (sums code).1).s + 70 * (turnAt (sums code).2.1).s + 25 * (turnAt (sums code).2.2).s

/-- The horizontal reach of the triple. -/
def reachAt (code : Nat) : Int :=
  -(48 * (turnAt (sums code).1).c + 70 * (turnAt (sums code).2.1).c + 25 * (turnAt (sums code).2.2).c)

/-- The code is a triple of the grid. -/
def onGrid (code : Nat) : Bool :=
  decide (code / 10000 ≤ 31 ∧ code / 100 % 100 ≤ 31 ∧ code % 100 ≤ 20)

/-- The triples of a row are on the grid and within `slack` of both bounds of its heights;
the first is within `slack` of the reach 10, each is at most `2 * slack` past the one before
it, and the last reaches, with `slack`, as far as the box or the arm. -/
def Row.Covers (r : Row) : Prop :=
  0 ≤ r.lo ∧
  (∀ c ∈ r.first :: r.rest, onGrid c = true ∧ hundredths r.hi - slack ≤ heightAt c ∧
    heightAt c ≤ hundredths r.lo + slack) ∧
  reachAt r.first - slack ≤ hundredths 1000 ∧
  (r.first :: r.rest).IsChain (fun a b => reachAt b - slack ≤ reachAt a + slack) ∧
  let stop := reachAt ((r.first :: r.rest).getLast (List.cons_ne_nil _ _)) + slack
  hundredths 5391 ≤ stop ∨ 0 ≤ stop ∧ hundredths 7150 ^ 2 ≤ stop ^ 2 + hundredths r.lo ^ 2

instance : DecidablePred Row.Covers := fun _ =>
  inferInstanceAs (Decidable (_ ∧ _ ∧ _ ∧ _ ∧ (_ ∨ _)))

theorem rows_cover : ∀ r ∈ rows, r.Covers := by decide +kernel

/-! ## From codes to grid triples -/

/-- The grid triple of a code. -/
noncomputable def tripleAt (code : Nat) : ℝ × ℝ × ℝ :=
  (-Real.pi / 2 + (code / 10000 : Nat) * buChang, 0 + (code / 100 % 100 : Nat) * buChang,
    0 + (code % 100 : Nat) * buChang)

theorem tripleAt_mem {code : Nat} (h : onGrid code = true) : tripleAt code ∈ grid realMath := by
  have hpi := Real.pi_gt_d2
  obtain ⟨hi, hj, hk⟩ := of_decide_eq_true h
  have hle : ∀ {m n : Nat}, n ≤ m → (n : ℝ) ≤ m := fun h => by exact_mod_cast h
  simp only [grid]
  refine List.mem_flatMap.2 ⟨_, mem_loopValues rounds (code / 10000) _ ?_ ?_, List.mem_flatMap.2
    ⟨_, mem_loopValues rounds (code / 100 % 100) _ ?_ ?_, List.mem_map.2
      ⟨_, mem_loopValues rounds (code % 100) _ ?_ ?_, rfl⟩⟩⟩
  · simp only [rounds]
    omega
  · intro n hn
    have hn' := hle (hn.trans hi)
    simp only [realMath, buChang]
    push_cast at hn'
    linarith
  · simp only [rounds]
    omega
  · intro n hn
    have hn' := hle (hn.trans hj)
    simp only [realMath, buChang]
    push_cast at hn'
    linarith
  · simp only [rounds]
    omega
  · intro n hn
    have hn' := hle (hn.trans hk)
    simp only [realMath, buChang]
    push_cast at hn'
    linarith

/-- The loops of the search end before their rounds do. -/
theorem grid_complete {n : Nat} (h : rounds ≤ n) :
    loopValues (Real.pi / 2) buChang n (-Real.pi / 2) =
        loopValues (Real.pi / 2) buChang rounds (-Real.pi / 2) ∧
      loopValues Real.pi buChang n 0 = loopValues Real.pi buChang rounds 0 ∧
      loopValues (115 * Real.pi / 180) buChang n 0 =
        loopValues (115 * Real.pi / 180) buChang rounds 0 := by
  have hpi := Real.pi_lt_d2
  refine ⟨loopValues_eq_of_le ?_ h, loopValues_eq_of_le ?_ h, loopValues_eq_of_le ?_ h⟩ <;>
    norm_num [rounds, buChang] <;> linarith

theorem cos_shoulder (x : ℝ) : Real.cos (-Real.pi / 2 + x) = Real.sin x := by
  rw [neg_div, neg_add_eq_sub, Real.cos_sub_pi_div_two]

theorem sin_shoulder (x : ℝ) : Real.sin (-Real.pi / 2 + x) = -Real.cos x := by
  rw [neg_div, neg_add_eq_sub, Real.sin_sub_pi_div_two]

theorem angles_eq (code : Nat) :
    (tripleAt code).1 = -Real.pi / 2 + (sums code).1 * (1 / 10) ∧
      (tripleAt code).1 + (tripleAt code).2.1 = -Real.pi / 2 + (sums code).2.1 * (1 / 10) ∧
      (tripleAt code).1 + (tripleAt code).2.1 + (tripleAt code).2.2 =
        -Real.pi / 2 + (sums code).2.2 * (1 / 10) := by
  refine ⟨rfl, ?_, ?_⟩
  · simp only [tripleAt, sums, buChang]
    push_cast
    ring
  · simp only [tripleAt, sums, buChang]
    push_cast
    ring

theorem sums_le {code : Nat} (h : onGrid code = true) :
    (sums code).1 ≤ 82 ∧ (sums code).2.1 ≤ 82 ∧ (sums code).2.2 ≤ 82 := by
  obtain ⟨hi, hj, hk⟩ := of_decide_eq_true h
  simp only [sums]
  omega

/-- What the checks say about the height of a grid triple. -/
theorem abs_height_sub_le {code : Nat} (h : onGrid code = true) :
    |curHeight realMath (tripleAt code).1 (tripleAt code).2.1 (tripleAt code).2.2 -
      (A1 - A5 + heightAt code / 20000000)| ≤ 1 / 200 := by
  obtain ⟨h1, h2, h3⟩ := sums_le h
  obtain ⟨e1, e2, e3⟩ := angles_eq code
  have s1 := abs_sin_sub_le h1
  have s2 := abs_sin_sub_le h2
  have s3 := abs_sin_sub_le h3
  have hheight : curHeight realMath (tripleAt code).1 (tripleAt code).2.1 (tripleAt code).2.2 =
      16 + 24 * Real.sin ((sums code).1 * (1 / 10)) + 35 * Real.sin ((sums code).2.1 * (1 / 10)) +
        25 / 2 * Real.sin ((sums code).2.2 * (1 / 10)) - 19 / 2 := by
    simp only [curHeight, realMath]
    rw [e3, e2, e1, cos_shoulder, cos_shoulder, cos_shoulder]
    rfl
  rw [hheight]
  simp only [heightAt, A1, A5]
  push_cast
  rw [abs_le] at s1 s2 s3 ⊢
  constructor <;> linarith

theorem abs_reach_sub_le {code : Nat} (h : onGrid code = true) :
    |curHorizontal realMath (tripleAt code).1 (tripleAt code).2.1 (tripleAt code).2.2 -
      reachAt code / 20000000| ≤ 1 / 200 := by
  obtain ⟨h1, h2, h3⟩ := sums_le h
  obtain ⟨e1, e2, e3⟩ := angles_eq code
  have s1 := abs_cos_sub_le h1
  have s2 := abs_cos_sub_le h2
  have s3 := abs_cos_sub_le h3
  have hreach : curHorizontal realMath (tripleAt code).1 (tripleAt code).2.1 (tripleAt code).2.2 =
      -(24 * Real.cos ((sums code).1 * (1 / 10)) + 35 * Real.cos ((sums code).2.1 * (1 / 10)) +
        25 / 2 * Real.cos ((sums code).2.2 * (1 / 10))) := by
    simp only [curHorizontal, realMath]
    rw [e3, e2, e1, sin_shoulder, sin_shoulder, sin_shoulder]
    simp only [A2, A3, A4]
    ring
  rw [hreach]
  simp only [reachAt]
  push_cast
  rw [abs_le] at s1 s2 s3 ⊢
  constructor <;> linarith

/-! ## Every height and reach is covered -/

theorem rows_ne_nil : rows ≠ [] := by decide

/-- The rows follow one another from 13 to 53. -/
theorem rows_linked : (rows.head rows_ne_nil).lo = 1300 ∧
    rows.IsChain (fun a b => b.lo ≤ a.hi) ∧ (rows.getLast rows_ne_nil).hi = 5300 := by
  decide +kernel

theorem Row.Covers.exists_code {r : Row} (hr : r.Covers) {h ρ : ℝ} (hlo : r.lo / 100 ≤ h)
    (hhi : h ≤ r.hi / 100) (hρ : 10 ≤ ρ) (hbox : ρ ≤ 53.91) (harm : ρ ^ 2 + h ^ 2 ≤ 71.5 ^ 2) :
    ∃ code, onGrid code = true ∧ |heightAt code / 20000000 - h| ≤ 0.99 ∧
      |reachAt code / 20000000 - ρ| ≤ 0.99 := by
  obtain ⟨hpos, hcodes, hfirst, hlinked, hstop⟩ := hr
  have hcast : ∀ {a b : Int}, a ≤ b → (a : ℝ) ≤ b := fun h => by exact_mod_cast h
  have hlast : ρ ≤ ((reachAt ((r.first :: r.rest).getLast (List.cons_ne_nil _ _)) + slack : Int) : ℝ) /
      20000000 := by
    generalize reachAt _ + slack = stop at hstop
    rcases hstop with hstop | ⟨hstop, hsq⟩
    · have h1 := hcast hstop
      simp only [hundredths] at h1
      push_cast at h1
      linarith
    · -- the arm is too short for the box here
      have h1 := hcast hstop
      have h2 := hcast hsq
      have h3 := hcast hpos
      simp only [hundredths] at h2
      push_cast at h1 h2 h3
      have hsq' : (r.lo / 100 : ℝ) ^ 2 ≤ h ^ 2 := pow_le_pow_left₀ (by positivity) hlo 2
      rw [← pow_le_pow_iff_left₀ (by linarith) (by positivity) two_ne_zero]
      calc ρ ^ 2 ≤ 71.5 ^ 2 - (r.lo / 100 : ℝ) ^ 2 := by linarith
        _ ≤ ((stop : ℝ) / 20000000) ^ 2 := by linarith
  obtain ⟨c, hc, hleft, hright⟩ := exists_mem_of_linked
    (fun c => ((reachAt c - slack : Int) : ℝ) / 20000000)
    (fun c => ((reachAt c + slack : Int) : ℝ) / 20000000) (r.first :: r.rest)
    (List.cons_ne_nil _ _) (x := ρ)
    (by
      have h1 := hcast hfirst
      simp only [hundredths] at h1
      push_cast at h1
      rw [List.head_cons]
      push_cast
      linarith)
    (hlinked.imp fun a b hab => by
      have h1 := hcast hab
      gcongr)
    hlast
  obtain ⟨hgrid, htop, hbottom⟩ := hcodes c hc
  have htop' := hcast htop
  have hbottom' := hcast hbottom
  simp only [hundredths, slack] at htop' hbottom' hleft hright
  push_cast at htop' hbottom' hleft hright
  exact ⟨c, hgrid, abs_le.2 ⟨by linarith, by linarith⟩, abs_le.2 ⟨by linarith, by linarith⟩⟩

/-- Some code is within 0.99 of a height and a reach that the box and the arm allow. -/
theorem exists_code {h ρ : ℝ} (hlo : 13 ≤ h) (hhi : h ≤ 53) (hρ : 10 ≤ ρ) (hbox : ρ ≤ 53.91)
    (harm : ρ ^ 2 + h ^ 2 ≤ 71.5 ^ 2) :
    ∃ code, onGrid code = true ∧ |heightAt code / 20000000 - h| ≤ 0.99 ∧
      |reachAt code / 20000000 - ρ| ≤ 0.99 := by
  obtain ⟨hstart, hlinked, hstop⟩ := rows_linked
  obtain ⟨r, hr, hleft, hright⟩ := exists_mem_of_linked (fun r : Row => (r.lo : ℝ) / 100)
    (fun r : Row => (r.hi : ℝ) / 100) rows rows_ne_nil (x := h)
    (by
      rw [hstart]
      norm_num
      exact hlo)
    (hlinked.imp fun a b hab => by
      have h1 : (b.lo : ℝ) ≤ a.hi := by exact_mod_cast hab
      gcongr)
    (by
      rw [hstop]
      norm_num
      exact hhi)
  exact (rows_cover r hr).exists_code hleft hright hρ hbox harm

/-! ## Targets -/

/-- The squared length of the vector a target asks of the three links: from the shoulder to
the height and the horizontal distance that the search compares with. -/
def neededSq {K : Type} [Field K] (p : Pos K) : K :=
  (p.x + P) ^ 2 + p.y ^ 2 + (p.z + 2 * A5 - A1) ^ 2

/-- The length of the three links. -/
def armLength {K : Type} [Field K] : K := A2 + A3 + A4

theorem armLength_eq : (armLength : ℝ) = 71.5 := by norm_num [armLength, A2, A3, A4]

theorem clampCoordinates_mem (p : Pos ℝ) :
    (-25 ≤ (clampCoordinates p).x ∧ (clampCoordinates p).x ≤ 25) ∧
      (10 ≤ (clampCoordinates p).y ∧ (clampCoordinates p).y ≤ 41) ∧
      (10 ≤ (clampCoordinates p).z ∧ (clampCoordinates p).z ≤ 50) :=
  ⟨clampTo_mem (by norm_num [xMin, xMax]) p.x, clampTo_mem (by norm_num [yMin, yMax]) p.y,
    clampTo_mem (by norm_num [zMin, zMax]) p.z⟩

theorem horizontalDistance_sq (X Y : ℝ) :
    horizontalDistance realMath X Y ^ 2 = (X + P) ^ 2 + Y ^ 2 := by
  have hnonneg : 0 ≤ (X + P) * (X + P) + Y * Y :=
    add_nonneg (mul_self_nonneg _) (mul_self_nonneg _)
  calc horizontalDistance realMath X Y ^ 2 = (X + P) * (X + P) + Y * Y := Real.sq_sqrt hnonneg
    _ = (X + P) ^ 2 + Y ^ 2 := by ring

/-- A triple whose height and reach are close to those of the target, by the checks, passes. -/
theorem passes_of_code {code : Nat} {p : Pos ℝ} (hgrid : onGrid code = true)
    (hheight : |heightAt code / 20000000 - (p.z + 3)| ≤ 0.99)
    (hnear : |reachAt code / 20000000 - horizontalDistance realMath p.x p.y| ≤ 0.99) :
    passes realMath p.x p.y p.z (tripleAt code) := by
  have h1 := abs_height_sub_le hgrid
  have h2 := abs_reach_sub_le hgrid
  simp only [A1, A5] at h1
  rw [abs_le] at h1 h2 hheight hnear
  constructor
  · simp only [targetHeight, A5, tolerance]
    exact abs_lt.2 ⟨by linarith, by linarith⟩
  · show |horizontalDistance realMath p.x p.y - _| < 1
    exact abs_lt.2 ⟨by linarith, by linarith⟩

/-- A target of the box that asks for no more than the length of the arm is close to a triple by the
checks. -/
theorem code_of_reach {p : Pos ℝ} (hx : -25 ≤ p.x ∧ p.x ≤ 25) (hy : 10 ≤ p.y ∧ p.y ≤ 41)
    (hz : 10 ≤ p.z ∧ p.z ≤ 50) (hreach : neededSq p ≤ armLength ^ 2) :
    ∃ code, onGrid code = true ∧ |heightAt code / 20000000 - (p.z + 3)| ≤ 0.99 ∧
      |reachAt code / 20000000 - horizontalDistance realMath p.x p.y| ≤ 0.99 := by
  let ρ : ℝ := horizontalDistance realMath p.x p.y
  have hρsq : ρ ^ 2 = (p.x + 10) ^ 2 + p.y ^ 2 := horizontalDistance_sq p.x p.y
  have hρpos : 0 ≤ ρ := Real.sqrt_nonneg _
  have hρlo : 10 ≤ ρ := by
    rw [← pow_le_pow_iff_left₀ (by norm_num) hρpos two_ne_zero, hρsq]
    nlinarith [hy.1, sq_nonneg (p.x + 10)]
  have hρhi : ρ ≤ 53.91 := by
    rw [← pow_le_pow_iff_left₀ hρpos (by norm_num) two_ne_zero, hρsq]
    nlinarith [hx.1, hx.2, hy.1, hy.2]
  have harm : ρ ^ 2 + (p.z + 3) ^ 2 ≤ 71.5 ^ 2 := by
    rw [armLength_eq] at hreach
    simp only [neededSq, P, A5, A1] at hreach
    rw [hρsq]
    linarith
  exact exists_code (h := p.z + 3) (by linarith [hz.1]) (by linarith [hz.2]) hρlo hρhi harm

theorem exists_passing {p : Pos ℝ} (hx : -25 ≤ p.x ∧ p.x ≤ 25) (hy : 10 ≤ p.y ∧ p.y ≤ 41)
    (hz : 10 ≤ p.z ∧ p.z ≤ 50) (hreach : neededSq p ≤ armLength ^ 2) :
    ∃ c ∈ grid realMath, passes realMath p.x p.y p.z c := by
  obtain ⟨code, hgrid, hheight, hnear⟩ := code_of_reach hx hy hz hreach
  exact ⟨tripleAt code, tripleAt_mem hgrid, passes_of_code hgrid hheight hnear⟩

theorem reach_le (J2 J3 J4 : ℝ) :
    curHorizontal realMath J2 J3 J4 ^ 2 + (curHeight realMath J2 J3 J4 - (A1 - A5)) ^ 2 ≤
      armLength ^ 2 := by
  have hcos : ∀ x y : ℝ, Real.cos x * Real.cos y + Real.sin x * Real.sin y ≤ 1 := by
    intro x y
    rw [← Real.cos_sub]
    exact Real.cos_le_one _
  have h12 := hcos J2 (J2 + J3)
  have h13 := hcos J2 (J2 + J3 + J4)
  have h23 := hcos (J2 + J3) (J2 + J3 + J4)
  have h1 := Real.sin_sq_add_cos_sq J2
  have h2 := Real.sin_sq_add_cos_sq (J2 + J3)
  have h3 := Real.sin_sq_add_cos_sq (J2 + J3 + J4)
  rw [armLength_eq]
  simp only [curHorizontal, curHeight, realMath, A1, A2, A3, A4, A5]
  nlinarith

/-- A target that asks for more than the length of the arm and the two tolerances has none. -/
theorem not_passes_of_far {p : Pos ℝ} (hfar : (armLength + √2) ^ 2 ≤ neededSq p) (c : ℝ × ℝ × ℝ) :
    ¬ passes realMath p.x p.y p.z c := by
  rintro ⟨hheight, hhorizontal⟩
  let needed : ℂ := ⟨horizontalDistance realMath p.x p.y, p.z + 2 * A5 - A1⟩
  let reached : ℂ := ⟨curHorizontal realMath c.1 c.2.1 c.2.2,
    curHeight realMath c.1 c.2.1 c.2.2 - (A1 - A5)⟩
  have hneeded : ‖needed‖ ^ 2 = neededSq p := by
    rw [Complex.sq_norm, Complex.normSq_apply, neededSq, ← horizontalDistance_sq]
    ring
  have hreached : ‖reached‖ ≤ armLength := by
    rw [← pow_le_pow_iff_left₀ (norm_nonneg _) (by rw [armLength_eq]; norm_num) two_ne_zero,
      Complex.sq_norm, Complex.normSq_apply, ← sq, ← sq]
    exact reach_le c.1 c.2.1 c.2.2
  have hapart : ‖needed - reached‖ < √2 := by
    have hre : (needed - reached).re ^ 2 < 1 := (sq_lt_one_iff_abs_lt_one _).2 hhorizontal
    have him : (needed - reached).im ^ 2 < 1 := by
      have heq : (needed - reached).im = -(curHeight realMath c.1 c.2.1 c.2.2 - targetHeight p.z) := by
        simp only [needed, reached, targetHeight, Complex.sub_im]
        ring
      rw [heq, neg_sq]
      exact (sq_lt_one_iff_abs_lt_one _).2 hheight
    rw [Real.lt_sqrt (norm_nonneg _), Complex.sq_norm, Complex.normSq_apply, ← sq, ← sq]
    linarith
  have hlt : ‖needed‖ < armLength + √2 :=
    calc ‖needed‖ = ‖reached + (needed - reached)‖ := by rw [add_sub_cancel]
      _ ≤ ‖reached‖ + ‖needed - reached‖ := norm_add_le _ _
      _ < armLength + √2 := by linarith
  have hpos : 0 ≤ armLength + √2 := by
    rw [armLength_eq]
    positivity
  exact absurd (pow_lt_pow_left₀ hlt (norm_nonneg _) two_ne_zero) (by rw [hneeded]; exact not_lt.2 hfar)

/-- Whatever the clamp puts out, the search finds an answer for it if it asks for no more than
the length of the arm. -/
theorem search_of_reach (p : Pos ℝ) (h : neededSq (clampCoordinates p) ≤ armLength ^ 2) :
    (∃ c ∈ grid realMath, passes realMath (clampCoordinates p).x (clampCoordinates p).y
      (clampCoordinates p).z c) ∧
    ∀ a, (search realMath a (clampCoordinates p).x (clampCoordinates p).y
      (clampCoordinates p).z).isSome = true := by
  obtain ⟨hx, hy, hz⟩ := clampCoordinates_mem p
  have hpass := exists_passing hx hy hz h
  exact ⟨hpass, fun a => search_isSome.2 hpass⟩

theorem clampCoordinates_eq {p : Pos ℝ} (hx : -25 ≤ p.x ∧ p.x ≤ 25) (hy : 10 ≤ p.y ∧ p.y ≤ 41)
    (hz : 10 ≤ p.z ∧ p.z ≤ 50) : clampCoordinates p = p := by
  have hin : ∀ {lo hi v : ℝ}, lo ≤ v ∧ v ≤ hi → clampTo lo hi v = v := by
    intro lo hi v h
    unfold clampTo
    dsimp only
    rw [if_neg (not_lt.2 h.1), if_neg (not_lt.2 h.2)]
  show Pos.mk _ _ _ = p
  rw [hin (by simpa [xMin, xMax] using hx), hin (by simpa [yMin, yMax] using hy),
    hin (by simpa [zMin, zMax] using hz)]

/-- The jog target that the control program starts with is answered. -/
theorem search_of_reach_start : clampCoordinates (⟨0, 30, 25⟩ : Pos ℝ) = ⟨0, 30, 25⟩ ∧
    (search realMath Arm.boot 0 30 25).isSome = true := by
  have hclamp : clampCoordinates (⟨0, 30, 25⟩ : Pos ℝ) = ⟨0, 30, 25⟩ :=
    clampCoordinates_eq (by norm_num) (by norm_num) (by norm_num)
  have hreach : neededSq (clampCoordinates (⟨0, 30, 25⟩ : Pos ℝ)) ≤ armLength ^ 2 := by
    rw [hclamp, armLength_eq]
    norm_num [neededSq, P, A1, A5]
  have h := (search_of_reach ⟨0, 30, 25⟩ hreach).2 Arm.boot
  rw [hclamp] at h
  exact ⟨hclamp, h⟩

/-- The corner (25, 41, 50) of the box is out of reach: no triple passes and the search finds
nothing. -/
theorem not_search_corner : clampCoordinates (⟨25, 41, 50⟩ : Pos ℝ) = ⟨25, 41, 50⟩ ∧
    (¬ ∃ c ∈ grid realMath, passes realMath 25 41 50 c) ∧
    ∀ a, search realMath a 25 41 50 = none := by
  have hfar : (armLength + √2) ^ 2 ≤ neededSq (⟨25, 41, 50⟩ : Pos ℝ) := by
    have hsqrt : √2 ≤ 1.5 := Real.sqrt_le_iff.2 ⟨by norm_num, by norm_num⟩
    calc (armLength + √2) ^ 2 ≤ (armLength + 1.5) ^ 2 := by
          rw [armLength_eq]
          gcongr
      _ ≤ neededSq ⟨25, 41, 50⟩ := by
          rw [armLength_eq]
          norm_num [neededSq, P, A1, A5]
  have hnone : ¬ ∃ c ∈ grid realMath, passes realMath 25 41 50 c :=
    fun ⟨c, _, hc⟩ => not_passes_of_far hfar c hc
  refine ⟨clampCoordinates_eq (by norm_num) (by norm_num) (by norm_num), hnone, ?_⟩
  intro a
  rw [← Option.not_isSome_iff_eq_none, search_isSome]
  exact hnone

end RoboticArm
