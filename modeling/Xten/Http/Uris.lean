import Xten.Http.Requests
import Xten.Std.Delimiters

/-!
# Parts of a URI

`setUri` looks for the question mark first and for the number sign behind it, and sets only the
parts that it finds.
-/

namespace Xten.http

namespace HttpRequest

def setUri (self : HttpRequest) (uri : List Byte) : HttpRequest :=
  match uri.findIdx? (· = 63) with
  | none =>
      match uri.findIdx? (· = 35) with
      | none => { self with path := uri }
      | some pos2 => { self with path := uri.take pos2, fragment := uri.drop (pos2 + 1) }
  | some pos =>
      let rest := uri.drop (pos + 1)
      match rest.findIdx? (· = 35) with
      | none => { self with path := uri.take pos, query := rest }
      | some pos2 =>
          { self with
            path := uri.take pos
            query := rest.take pos2
            fragment := rest.drop (pos2 + 1) }

def getUri (self : HttpRequest) : List Byte :=
  self.path ++ (if self.query = [] then [] else 63 :: self.query) ++
    (if self.fragment = [] then [] else 35 :: self.fragment)

end HttpRequest

/-- What follows the first number sign. -/
def fragmentOf (uri : List Byte) : List Byte :=
  (uri.dropWhile (· ≠ 35)).drop 1

/-- What follows the first question mark before that. -/
def queryOf (uri : List Byte) : List Byte :=
  ((uri.takeWhile (· ≠ 35)).dropWhile (· ≠ 63)).drop 1

/-- What is before both. -/
def pathOf (uri : List Byte) : List Byte :=
  (uri.takeWhile (· ≠ 35)).takeWhile (· ≠ 63)

/-- The request gets the parts of the URI, and gives the URI back if no part is empty behind its
delimiter. -/
structure Splits (request : HttpRequest) (uri : List Byte) : Prop where
  path : (request.setUri uri).path = pathOf uri
  query : (request.setUri uri).query = queryOf uri
  fragment : (request.setUri uri).fragment = fragmentOf uri
  whole : (63 ∈ uri.takeWhile (· ≠ 35) → queryOf uri ≠ []) → (35 ∈ uri → fragmentOf uri ≠ []) →
    (request.setUri uri).getUri = uri

section Parts

open Std.Delimiters

variable {path query fragment uri : List Byte}

theorem parts_path (noMark : 63 ∉ uri) (noSign : 35 ∉ uri) :
    pathOf uri = uri ∧ queryOf uri = [] ∧ fragmentOf uri = [] := by
  rw [pathOf, queryOf, fragmentOf, takeWhile_absent noSign, takeWhile_absent noMark,
    dropWhile_absent noMark, dropWhile_absent noSign]
  exact ⟨rfl, rfl, rfl⟩

theorem parts_query (noMark : 63 ∉ path) (noSign : 35 ∉ path ++ 63 :: query) :
    pathOf (path ++ 63 :: query) = path ∧ queryOf (path ++ 63 :: query) = query ∧
      fragmentOf (path ++ 63 :: query) = [] := by
  rw [pathOf, queryOf, fragmentOf, takeWhile_absent noSign, takeWhile_split noMark,
    dropWhile_split noMark, dropWhile_absent noSign]
  exact ⟨rfl, rfl, rfl⟩

/-- A fragment comes off first. -/
theorem parts_fragment (noSign : 35 ∉ uri) :
    pathOf (uri ++ 35 :: fragment) = pathOf uri ∧ queryOf (uri ++ 35 :: fragment) = queryOf uri ∧
      fragmentOf (uri ++ 35 :: fragment) = fragment := by
  rw [pathOf, queryOf, fragmentOf, takeWhile_split noSign, dropWhile_split noSign, pathOf, queryOf,
    takeWhile_absent noSign]
  exact ⟨rfl, rfl, rfl⟩

theorem noSign_pathOf (uri : List Byte) : 35 ∉ pathOf uri := fun sign =>
  absent_takeWhile ((List.takeWhile_prefix _).subset sign)

/-- The parts before a fragment make up the URI again. -/
theorem front_of_parts (noSign : 35 ∉ uri) (query : 63 ∈ uri → queryOf uri ≠ []) :
    pathOf uri ++ (if queryOf uri = [] then [] else 63 :: queryOf uri) = uri := by
  obtain noMark | ⟨before, after, noMark, rfl⟩ := absent_or_split 63 uri
  · obtain ⟨path, none, -⟩ := parts_path noMark noSign
    rw [path, none, if_pos rfl, List.append_nil]
  · obtain ⟨path, found, -⟩ := parts_query noMark noSign
    rw [if_neg (query (by simp)), path, found]

/-- The parts make up the URI again, unless one of them is empty behind its delimiter. -/
theorem whole_of_parts (query : 63 ∈ uri.takeWhile (· ≠ 35) → queryOf uri ≠ [])
    (fragment : 35 ∈ uri → fragmentOf uri ≠ []) :
    pathOf uri ++ (if queryOf uri = [] then [] else 63 :: queryOf uri) ++
      (if fragmentOf uri = [] then [] else 35 :: fragmentOf uri) = uri := by
  obtain noSign | ⟨before, after, noSign, rfl⟩ := absent_or_split 35 uri
  · rw [takeWhile_absent noSign] at query
    have none : fragmentOf uri = [] := by
      rw [fragmentOf, dropWhile_absent noSign]
      rfl
    rw [front_of_parts noSign query, none, if_pos rfl, List.append_nil]
  · obtain ⟨path, found, behind⟩ := @parts_fragment after before noSign
    rw [takeWhile_split noSign, found] at query
    rw [if_neg (fragment (by simp)), path, found, behind, front_of_parts noSign query]

end Parts

section SetUri

open Std.Delimiters HttpRequest

variable {path query fragment uri : List Byte} (request : HttpRequest)

theorem setUri_path (noMark : 63 ∉ uri) (noSign : 35 ∉ uri) :
    request.setUri uri = { request with path := uri } := by
  rw [setUri, findIdx?_absent noMark, findIdx?_absent noSign]

theorem setUri_fragment (noMark : 63 ∉ path ++ 35 :: fragment) (noSign : 35 ∉ path) :
    request.setUri (path ++ 35 :: fragment) =
      { request with path := path, fragment := fragment } := by
  rw [setUri, findIdx?_absent noMark, findIdx?_split noSign]
  simp

theorem setUri_query (noMark : 63 ∉ path) (noSign : 35 ∉ query) :
    request.setUri (path ++ 63 :: query) = { request with path := path, query := query } := by
  have behind : (path ++ 63 :: query).drop (path.length + 1) = query := by simp
  simp only [setUri, findIdx?_split noMark, behind, findIdx?_absent noSign, List.take_left]

theorem setUri_all (noMark : 63 ∉ path) (noSign : 35 ∉ query) :
    request.setUri (path ++ 63 :: (query ++ 35 :: fragment)) =
      { request with path := path, query := query, fragment := fragment } := by
  have behind : (path ++ 63 :: (query ++ 35 :: fragment)).drop (path.length + 1) =
    query ++ 35 :: fragment := by simp
  have last : (query ++ 35 :: fragment).drop (query.length + 1) = fragment := by simp
  simp only [setUri, findIdx?_split noMark, behind, findIdx?_split noSign, last, List.take_left]

theorem splits_iff_parts : Splits request uri ↔ (request.setUri uri).path = pathOf uri ∧
    (request.setUri uri).query = queryOf uri ∧
      (request.setUri uri).fragment = fragmentOf uri := by
  constructor
  · exact fun splits => ⟨splits.path, splits.query, splits.fragment⟩
  · rintro ⟨path, query, fragment⟩
    refine ⟨path, query, fragment, fun marked signed => ?_⟩
    rw [getUri, path, query, fragment]
    exact whole_of_parts marked signed

theorem not_splits_of_sign (sign : 35 ∈ path) (same : (request.setUri uri).path = path) :
    ¬ Splits request uri := fun splits =>
  noSign_pathOf uri (splits.path ▸ same ▸ sign)

/-- A URI is split exactly if no number sign stands before its first question mark, and the request
has no query or fragment yet that the URI does not set. -/
theorem splits_iff (request : HttpRequest) (uri : List Byte) : Splits request uri ↔
    (63 ∈ uri → 35 ∉ uri.takeWhile (· ≠ 63)) ∧ (63 ∉ uri → request.query = []) ∧
      (35 ∉ uri → request.fragment = []) := by
  obtain noMark | ⟨path, rest, noMark, rfl⟩ := absent_or_split 63 uri
  · obtain noSign | ⟨path, fragment, noSign, rfl⟩ := absent_or_split 35 uri
    · -- Only a path: what an earlier URI left stays.
      obtain ⟨path, query, fragment⟩ := parts_path noMark noSign
      rw [splits_iff_parts, setUri_path request noMark noSign, path, query, fragment]
      simp only [noMark, noSign, false_implies, not_false_eq_true, forall_const, true_and]
    · have noMarkPath : 63 ∉ path := fun mark => noMark (List.mem_append_left _ mark)
      have signed : 35 ∈ path ++ 35 :: fragment := by simp
      obtain ⟨path, query, -⟩ := parts_path noMarkPath noSign
      obtain ⟨samePath, sameQuery, fragment⟩ := @parts_fragment fragment _ noSign
      rw [splits_iff_parts, setUri_fragment request noMark noSign, samePath, sameQuery, fragment,
        path, query]
      simp only [noMark, signed, false_implies, not_false_eq_true, forall_const, true_and,
        not_true_eq_false, and_true]
  · have marked : 63 ∈ path ++ 63 :: rest := by simp
    rw [takeWhile_split noMark]
    obtain noSign | ⟨query, fragment, noSign, rfl⟩ := absent_or_split 35 rest
    · have same := setUri_query request noMark noSign
      by_cases sign : 35 ∈ path
      · refine iff_of_false (not_splits_of_sign request sign (by rw [same])) ?_
        exact fun holds => holds.1 marked sign
      · have absent : 35 ∉ path ++ 63 :: rest := absent_append sign (by decide) noSign
        obtain ⟨path, query, fragment⟩ := parts_query noMark absent
        rw [splits_iff_parts, same, path, query, fragment]
        simp only [marked, absent, sign, not_false_eq_true, not_true_eq_false, false_implies,
          forall_const, true_and]
    · have same := @setUri_all _ _ fragment request noMark noSign
      by_cases sign : 35 ∈ path
      · refine iff_of_false (not_splits_of_sign request sign (by rw [same])) ?_
        exact fun holds => holds.1 marked sign
      · have signed : 35 ∈ path ++ 63 :: (query ++ 35 :: fragment) := by simp
        have absent : 35 ∉ path ++ 63 :: query := absent_append sign (by decide) noSign
        obtain ⟨samePath, sameQuery, fragment⟩ := @parts_fragment fragment _ absent
        rw [List.append_assoc, List.cons_append] at samePath sameQuery fragment
        obtain ⟨path, query, -⟩ := parts_query noMark absent
        rw [splits_iff_parts, same, samePath, sameQuery, fragment, path, query]
        simp only [marked, signed, sign, not_false_eq_true, not_true_eq_false, false_implies,
          forall_const, and_self]

/-- A question mark in a fragment is taken for the start of a query. -/
theorem not_splits : ¬ ∀ request uri, Splits request uri := fun all =>
  absurd (all {} (ascii "a#b?c")).path (by decide)

end SetUri

end Xten.http
