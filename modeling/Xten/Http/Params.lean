import Xten.Http.Maps
import Xten.Util.UrlCoding
import Xten.Std.Delimiters

/-!
# Parameters in a query

`paramToQuery` joins the parameters as they are, and `initQueryParam` decodes their values.
-/

namespace Xten.http

open StringUtil

/-- `MapJoin(begin, end, tag1, tag2)`. -/
def mapJoin (tag1 tag2 : List Byte) : MapType → List Byte
  | [] => []
  | (key, val) :: rest =>
      key ++ tag1 ++ val ++ rest.flatMap fun entry => tag2 ++ entry.1 ++ tag1 ++ entry.2

namespace HttpRequest

def setParam (self : HttpRequest) (key val : List Byte) : HttpRequest :=
  { self with params := self.params.assign key val }

def paramToQuery (self : HttpRequest) : HttpRequest :=
  { self with query := mapJoin (ascii "=") (ascii "&") self.params }

/-- A new request with some parameters. -/
def withParams (settings : List (List Byte × List Byte)) : HttpRequest :=
  settings.foldl (fun request setting => request.setParam setting.1 setting.2) {}

end HttpRequest

/-- There is a percent sign with two hexadecimal digits behind it. -/
def Escapes (str : List Byte) : Prop :=
  ∃ high low, isxdigit high = true ∧ isxdigit low = true ∧ [37, high, low] <:+: str

/-- A parameter that is read as it is written: there is no equals sign in its key, and no ampersand
in its value, nor anything that would be decoded. -/
structure PlainParam (entry : List Byte × List Byte) : Prop where
  key : 61 ∉ entry.1
  ampersand : 38 ∉ entry.2
  plus : 43 ∉ entry.2
  escape : ¬ Escapes entry.2

section Decoding

variable {str rest : List Byte} {letter : Byte}

theorem length_urlDecode_le (str : List Byte) : (urlDecode true str).length ≤ str.length := by
  fun_induction urlDecode true str with
  | case1 => exact Nat.le_refl 0
  | case2 letter high low rest plus ih => exact Nat.succ_le_succ ih
  | case3 letter high low rest notPlus escape ih =>
      simp only [List.length_cons]
      omega
  | case4 letter high low rest notPlus verbatim ih => exact Nat.succ_le_succ ih
  | case5 letter rest short ih => exact Nat.succ_le_succ ih

theorem not_escapes_short (short : str.length < 3) : ¬ Escapes str := by
  rintro ⟨high, low, -, -, inside⟩
  exact absurd inside.length_le (Nat.not_le.mpr short)

/-- An escape is at the start, or behind it. -/
theorem escapes_cons : Escapes (letter :: rest) ↔
    (letter = 37 ∧ ∃ high low more, rest = high :: low :: more ∧ isxdigit high = true ∧
      isxdigit low = true) ∨ Escapes rest := by
  constructor
  · rintro ⟨high, low, first, second, inside⟩
    obtain here | later := List.infix_cons_iff.mp inside
    · obtain ⟨more, same⟩ := here
      obtain ⟨rfl, rfl⟩ := List.cons.inj same
      exact .inl ⟨rfl, high, low, more, rfl, first, second⟩
    · exact .inr ⟨high, low, first, second, later⟩
  · rintro (⟨rfl, high, low, more, rfl, first, second⟩ | ⟨high, low, first, second, inside⟩)
    · exact ⟨high, low, first, second, (List.prefix_append [37, high, low] more).isInfix⟩
    · exact ⟨high, low, first, second, inside.trans (List.suffix_cons _ _).isInfix⟩

/-- What `UrlDecode` leaves as it is. -/
theorem urlDecode_eq_iff (str : List Byte) :
    urlDecode true str = str ↔ 43 ∉ str ∧ ¬ Escapes str := by
  fun_induction urlDecode true str with
  | case1 => simp [not_escapes_short]
  | case2 letter high low rest plus ih =>
      obtain ⟨rfl, -⟩ := plus
      simp
  | case3 letter high low rest notPlus escape ih =>
      obtain ⟨rfl, first, second⟩ := escape
      refine iff_of_false (fun same => ?_) fun kept => kept.2 (escapes_cons.mpr (.inl
        ⟨rfl, high, low, rest, rfl, first, second⟩))
      have length := congrArg List.length same
      have le := length_urlDecode_le rest
      simp only [List.length_cons] at length
      omega
  | case4 letter high low rest notPlus verbatim ih =>
      have notHere : letter ≠ 43 := fun plus => notPlus ⟨plus, rfl⟩
      rw [List.cons_inj_right, ih, @escapes_cons (high :: low :: rest) letter,
        List.mem_cons (b := letter), not_or, not_or]
      constructor
      · rintro ⟨noPlus, noEscape⟩
        refine ⟨⟨notHere.symm, noPlus⟩, ?_, noEscape⟩
        rintro ⟨percent, _, _, _, same, first, second⟩
        obtain ⟨rfl, others⟩ := List.cons.inj same
        obtain ⟨rfl, -⟩ := List.cons.inj others
        exact verbatim ⟨percent, first, second⟩
      · rintro ⟨⟨-, noPlus⟩, -, noEscape⟩
        exact ⟨noPlus, noEscape⟩
  | case5 letter rest short ih =>
      have few : rest.length < 2 := by
        cases rest with
        | nil => exact Nat.zero_lt_two
        | cons high others =>
            cases others with
            | nil => exact Nat.one_lt_two
            | cons low more => exact absurd rfl (short high low more)
      have noEscape : ¬ Escapes rest := not_escapes_short (Nat.lt_succ_of_lt few)
      have noEscapeHere : ¬ Escapes (letter :: rest) :=
        not_escapes_short (Nat.succ_lt_succ few)
      rw [List.cons.injEq, ih, List.mem_cons, not_or]
      by_cases plus : letter = 43
      · rw [if_pos ⟨plus, rfl⟩, plus]
        exact iff_of_false (fun same => absurd same.1 (by decide)) fun kept => kept.1.1 rfl
      · rw [if_neg fun same => plus same.1]
        constructor
        · exact fun same => ⟨⟨Ne.symm plus, same.2.1⟩, noEscapeHere⟩
        · exact fun kept => ⟨rfl, kept.1.2, noEscape⟩

end Decoding

section Query

open Std.Delimiters HttpRequest

variable {flag : Byte} {trim : List Byte → List Byte} {rounds : Nat} {m done todo : MapType}
  {key val str rest : List Byte} {entry : List Byte × List Byte}

theorem MapType.insert_last (last : ∀ entry ∈ m, MapType.less entry.1 key) :
    m.insert key val = m ++ [(key, val)] :=
  MapType.update_last last

theorem MapType.Ordered.find_insert_last (ordered : MapType.Ordered m)
    (last : ∀ entry ∈ m, MapType.less entry.1 key) : (m.insert key val).find key = some val := by
  have put : MapType.Ordered (m.insert key val) := ordered.update
  have inside : (key, val) ∈ m.insert key val := by
    rw [MapType.insert_last last]
    exact List.mem_append_right _ (List.mem_singleton.mpr rfl)
  exact put.find_of_mem inside

theorem parseParamLoop_nil : parseParamLoop flag trim rounds [] m = m := by
  cases rounds with
  | zero => rfl
  | succ rounds => rw [parseParamLoop, List.takeWhile_nil, if_pos rfl]

/-- A round takes the key up to the equals sign, and the value up to the flag. -/
theorem parseParamLoop_succ (noEquals : 61 ∉ key) :
    parseParamLoop flag trim (rounds + 1) (key ++ 61 :: rest) m =
      parseParamLoop flag trim rounds (rest.drop ((rest.takeWhile (· ≠ flag)).length + 1))
        (m.insert (trim key) (urlDecode true (rest.takeWhile (· ≠ flag)))) := by
  have found : key.length ≠ (key ++ 61 :: rest).length := by
    simp only [List.length_append, List.length_cons]
    omega
  have behind : (key ++ 61 :: rest).drop (key.length + 1) = rest := by simp
  rw [parseParamLoop]
  simp only [takeWhile_split noEquals, behind, if_neg found]
  split
  case isTrue last =>
    rw [List.drop_eq_nil_of_le (by omega), parseParamLoop_nil]
  case isFalse => rfl

/-- A round ends the loop, or puts a value at a key without an equals sign. -/
theorem parseParamLoop_cases (str : List Byte) (m : MapType) :
    parseParamLoop flag trim (rounds + 1) str m = m ∨
      ∃ key value more, 61 ∉ key ∧ parseParamLoop flag trim (rounds + 1) str m =
        parseParamLoop flag trim rounds more (m.insert (trim key) value) := by
  obtain noEquals | ⟨key, rest, noEquals, rfl⟩ := absent_or_split 61 str
  · exact .inl (by rw [parseParamLoop, takeWhile_absent noEquals, if_pos rfl])
  · exact .inr ⟨key, _, _, noEquals, parseParamLoop_succ noEquals⟩

/-- The first value of a key stays. -/
theorem find_parseParamLoop (ordered : MapType.Ordered m) (found : m.find key = some val) :
    (parseParamLoop flag trim rounds str m).find key = some val := by
  induction rounds generalizing str m with
  | zero => exact found
  | succ rounds ih =>
      obtain same | ⟨other, value, more, -, same⟩ := parseParamLoop_cases str m
      · rw [same, found]
      · rw [same]
        refine ih ordered.update ?_
        rw [MapType.insert, ordered.find_update]
        split
        case isTrue same =>
          have there : m.find (trim other) = some val := by
            rw [← found, MapType.find, MapType.find, same]
          rw [there]
          rfl
        case isFalse => exact found

/-- What is read has no equals sign in its key. -/
theorem mem_parseParamLoop (member : entry ∈ parseParamLoop flag id rounds str m) :
    entry ∈ m ∨ 61 ∉ entry.1 := by
  induction rounds generalizing str m with
  | zero => exact .inl member
  | succ rounds ih =>
      obtain same | ⟨key, value, more, noEquals, same⟩ := parseParamLoop_cases str m
      · exact .inl (same ▸ member)
      · rw [same] at member
        obtain before | new := ih member
        · obtain inside | rfl | ⟨first, found, inside, -, rfl⟩ := MapType.mem_update before
          · exact .inl inside
          · exact .inr noEquals
          · exact .inl inside
        · exact .inr new

/-- What stands behind a value in a query. -/
theorem mapJoin_cons : mapJoin (ascii "=") (ascii "&") ((key, val) :: todo) =
    key ++ 61 :: (val ++ if todo = [] then [] else 38 :: mapJoin (ascii "=") (ascii "&") todo) := by
  cases todo with
  | nil => simp [mapJoin, show ascii "=" = [61] from rfl]
  | cons next others =>
      simp [mapJoin, show ascii "=" = [61] from rfl, show ascii "&" = [38] from rfl]

/-- A query with enough rounds: the value is taken up to its first ampersand. -/
theorem parseParamLoop_mapJoin (noEquals : 61 ∉ key) :
    parseParamLoop 38 id (rounds + 1) (mapJoin (ascii "=") (ascii "&") ((key, val) :: todo)) m =
      parseParamLoop 38 id rounds
        ((val ++ if todo = [] then [] else 38 :: mapJoin (ascii "=") (ascii "&") todo).drop
          ((val.takeWhile (· ≠ 38)).length + 1))
        (m.insert key (urlDecode true (val.takeWhile (· ≠ 38)))) := by
  have taken : (val ++ if todo = [] then [] else
      38 :: mapJoin (ascii "=") (ascii "&") todo).takeWhile (· ≠ 38) = val.takeWhile (· ≠ 38) := by
    rw [List.takeWhile_append]
    split
    case isTrue whole =>
      rw [(List.takeWhile_prefix _).eq_of_length whole]
      split
      · simp
      · simp
    case isFalse => rfl
  rw [mapJoin_cons, parseParamLoop_succ noEquals, taken]
  rfl

/-- A plain parameter is read. -/
theorem parseParamLoop_plain (plain : PlainParam (key, val))
    (last : ∀ entry ∈ m, MapType.less entry.1 key) :
    parseParamLoop 38 id (rounds + 1) (mapJoin (ascii "=") (ascii "&") ((key, val) :: todo)) m =
      parseParamLoop 38 id rounds (mapJoin (ascii "=") (ascii "&") todo) (m ++ [(key, val)]) := by
  have whole : val.takeWhile (· ≠ 38) = val := takeWhile_absent plain.ampersand
  have decoded := (urlDecode_eq_iff val).mpr ⟨plain.plus, plain.escape⟩
  rw [parseParamLoop_mapJoin plain.key, whole, decoded, MapType.insert_last last]
  congr 1
  cases todo with
  | nil => simp [mapJoin]
  | cons next others => simp

theorem less_of_ordered (ordered : MapType.Ordered (done ++ (key, val) :: todo)) :
    ∀ entry ∈ done, MapType.less entry.1 key := fun entry inside =>
  (List.pairwise_append.mp ordered).2.2 entry inside (key, val) List.mem_cons_self

theorem parseParamLoop_ordered (plain : ∀ entry ∈ todo, PlainParam entry)
    (ordered : MapType.Ordered (done ++ todo)) (enough : todo.length ≤ rounds) :
    parseParamLoop 38 id rounds (mapJoin (ascii "=") (ascii "&") todo) done = done ++ todo := by
  induction todo generalizing rounds done with
  | nil => rw [mapJoin, parseParamLoop_nil, List.append_nil]
  | cons entry others ih =>
      obtain ⟨key, val⟩ := entry
      cases rounds with
      | zero => exact absurd enough (Nat.not_succ_le_zero _)
      | succ rounds =>
          obtain ⟨here, later⟩ := List.forall_mem_cons.mp plain
          rw [parseParamLoop_plain here (less_of_ordered ordered),
            List.append_cons done (key, val) others]
          rw [List.append_cons] at ordered
          exact ih later ordered (Nat.le_of_succ_le_succ enough)

/-- What comes back as it was is plain: a key with an equals sign is never read, and a value is
decoded only up to an ampersand, which makes it shorter. -/
theorem plain_of_parseParamLoop (ordered : MapType.Ordered (done ++ todo))
    (enough : todo.length ≤ rounds)
    (same : parseParamLoop 38 id rounds (mapJoin (ascii "=") (ascii "&") todo) done =
      done ++ todo) : ∀ entry ∈ todo, PlainParam entry := by
  induction todo generalizing rounds done with
  | nil => intro entry inside; cases inside
  | cons entry others ih =>
      obtain ⟨key, val⟩ := entry
      cases rounds with
      | zero => exact absurd enough (Nat.not_succ_le_zero _)
      | succ rounds =>
          have last := less_of_ordered ordered
          have member : (key, val) ∈ done ++ (key, val) :: others := by simp
          have noEquals : 61 ∉ key := by
            rw [← same] at member
            obtain before | new := mem_parseParamLoop member
            · exact absurd (last _ before) (MapType.less_irrefl rfl)
            · exact new
          have decoded : urlDecode true (val.takeWhile (· ≠ 38)) = val := by
            have first : MapType.Ordered done := (List.pairwise_append.mp ordered).1
            have kept : ∀ value rest, (parseParamLoop 38 id rounds rest
                (done.insert key value)).find key = some value := fun value rest =>
              find_parseParamLoop first.update (first.find_insert_last last)
            have found := ordered.find_of_mem member
            rw [← same, parseParamLoop_mapJoin noEquals, kept] at found
            exact Option.some.inj found
          have whole : val.takeWhile (· ≠ 38) = val := by
            have short := length_urlDecode_le (val.takeWhile (· ≠ 38))
            rw [decoded] at short
            exact (List.takeWhile_prefix _).eq_of_length_le short
          have here : PlainParam (key, val) := by
            rw [whole] at decoded
            obtain ⟨noPlus, noEscape⟩ := (urlDecode_eq_iff val).mp decoded
            exact ⟨noEquals, absent_of_takeWhile whole, noPlus, noEscape⟩
          rw [parseParamLoop_plain here last] at same
          rw [List.append_cons done (key, val) others] at ordered same
          have later := ih ordered (Nat.le_of_succ_le_succ enough) same
          exact List.forall_mem_cons.mpr ⟨here, later⟩

theorem length_le_mapJoin (todo : MapType) :
    todo.length ≤ (mapJoin (ascii "=") (ascii "&") todo).length := by
  induction todo with
  | nil => exact Nat.zero_le _
  | cons entry others ih =>
      obtain ⟨key, val⟩ := entry
      rw [mapJoin_cons]
      cases others with
      | nil => simp only [List.length_append, List.length_cons, List.length_nil]; omega
      | cons next others =>
          rw [if_neg (List.cons_ne_nil _ _)]
          simp only [List.length_append, List.length_cons] at ih ⊢
          omega

end Query

namespace HttpRequest

theorem withParams_ordered (settings : List (List Byte × List Byte)) :
    MapType.Ordered (withParams settings).params := by
  induction settings using List.reverseRecOn with
  | nil => exact List.Pairwise.nil
  | append_singleton settings setting ih =>
      rw [withParams, List.foldl_append]
      exact ih.update

theorem initQueryParam_fresh (query : List Byte) :
    ({ query := query } : HttpRequest).initQueryParam.params =
      parseParamLoop 38 id (query.length + 1) query [] := by
  have fresh : ¬ (0 &&& 1 : BitVec 8) ≠ 0 := by decide
  rw [initQueryParam, if_neg fresh]
  rfl

/-- Parameters come back from a query exactly if all of them are plain. -/
theorem restored_iff (settings : List (List Byte × List Byte)) :
    ({ query := (withParams settings).paramToQuery.query } : HttpRequest).initQueryParam.params =
        (withParams settings).params ↔
      ∀ entry ∈ (withParams settings).params, PlainParam entry := by
  have ordered : MapType.Ordered ([] ++ (withParams settings).params) :=
    withParams_ordered settings
  have enough := Nat.le_succ_of_le (length_le_mapJoin (withParams settings).params)
  rw [initQueryParam_fresh]
  exact ⟨plain_of_parseParamLoop ordered enough,
    fun plain => parseParamLoop_ordered plain ordered enough⟩

/-- A value with an ampersand is cut there. -/
theorem not_restored : ¬ ∀ settings : List (List Byte × List Byte),
    (∀ setting ∈ settings, setting.1 ≠ []) →
      ({ query := (withParams settings).paramToQuery.query } : HttpRequest).initQueryParam.params =
        (withParams settings).params := fun all =>
  absurd (all [(ascii "a", ascii "b&c")] (by decide)) (by decide)

end HttpRequest

end Xten.http
