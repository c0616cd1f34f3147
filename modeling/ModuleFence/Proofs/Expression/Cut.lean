import Mathlib.Data.List.Basic
import ModuleFence.Store.Names

/-!
Expressions cut off below some levels. Callees, arguments and the values of pairs stand one level
below the expression that holds them; what stands too deep is known by its kind and its range only.
Keys are never cut.
-/

set_option autoImplicit false

namespace ModuleFence.Expression

def kind : Expression → String
  | identifier _ _ => "identifier"
  | string _ _ => "string"
  | object _ _ => "object"
  | call _ _ _ => "call_expression"
  | other kind _ => kind

mutual

/-- An expression with room for some levels below it; without room for itself, only its kind. -/
def cut (room : Int) : Expression → Expression
  | identifier name span => if room < 0 then other "identifier" span else identifier name span
  | string value span => if room < 0 then other "string" span else string value span
  | object members span =>
    if room < 0 then other "object" span else object (cutMembers (room - 1) members) span
  | call callee arguments span =>
    if room < 0 then other "call_expression" span
    else call (cut (room - 1) callee) (cutAll (room - 1) arguments) span
  | other kind span => other kind span

def cutAll (room : Int) : List Expression → List Expression
  | [] => []
  | expression :: rest => cut room expression :: cutAll room rest

def cutMembers (room : Int) : List Member → List Member
  | [] => []
  | member :: rest => cutMember room member :: cutMembers room rest

def cutMember (room : Int) : Member → Member
  | .pair key value span => .pair key (cut room value) span
  | .shorthand name span => .shorthand name span
  | .method key span => .method key span
  | .other kind span => .other kind span

end

/-- An expression as it is, with the same room for each of its parts. -/
def cutParts (room : Int) : Expression → Expression
  | object members span => object (cutMembers room members) span
  | call callee arguments span => call (cut room callee) (cutAll room arguments) span
  | identifier name span => identifier name span
  | string value span => string value span
  | other kind span => other kind span

theorem cut_other (room : Int) (kind : String) (span : Span) :
    (other kind span).cut room = other kind span := by
  rw [cut]

theorem cut_of_neg {room : Int} (small : room < 0) (expression : Expression) :
    expression.cut room = other expression.kind expression.span := by
  cases expression with
  | other kind span => exact cut_other room kind span
  | identifier name span => rw [cut, if_pos small]; rfl
  | string value span => rw [cut, if_pos small]; rfl
  | object members span => rw [cut, if_pos small]; rfl
  | call callee arguments span => rw [cut, if_pos small]; rfl

theorem cut_of_nonneg {room : Int} (large : 0 ≤ room) (expression : Expression) :
    expression.cut room = expression.cutParts (room - 1) := by
  have enough : ¬ room < 0 := Int.not_lt.mpr large
  cases expression with
  | other kind span => exact cut_other room kind span
  | identifier name span => rw [cut, if_neg enough]; rfl
  | string value span => rw [cut, if_neg enough]; rfl
  | object members span => rw [cut, if_neg enough]; rfl
  | call callee arguments span => rw [cut, if_neg enough]; rfl

@[simp] theorem kind_cutParts (room : Int) (expression : Expression) :
    (expression.cutParts room).kind = expression.kind := by
  cases expression <;> rfl

@[simp] theorem span_cutParts (room : Int) (expression : Expression) :
    (expression.cutParts room).span = expression.span := by
  cases expression <;> rfl

theorem cutMembers_eq_map (room : Int) (members : List Member) :
    cutMembers room members = members.map (cutMember room) := by
  induction members with
  | nil => rw [cutMembers, List.map_nil]
  | cons member rest ih => rw [cutMembers, ih, List.map_cons]

theorem key?_cutMember (room : Int) (member : Member) :
    (cutMember room member).key? = member.key? := by
  cases member with
  | pair key value span => rw [cutMember]; rfl
  | shorthand name span => rw [cutMember]
  | method key span => rw [cutMember]
  | other kind span => rw [cutMember]

theorem memberKeys_cutMembers (room : Int) (members : List Member) :
    memberKeys (cutMembers room members) = memberKeys members := by
  rw [cutMembers_eq_map, memberKeys, memberKeys, List.filterMap_map]
  exact List.filterMap_congr fun member _ => key?_cutMember room member

/-- Cutting keeps the keys of an object for which there is room. -/
theorem keysOf_cut {room : Int} (large : 0 ≤ room) (expression : Expression) :
    Store.keysOf (expression.cut room) = Store.keysOf expression := by
  rw [cut_of_nonneg large]
  cases expression with
  | object members span => exact memberKeys_cutMembers (room - 1) members
  | _ => rfl

@[simp] theorem kind_cut (room : Int) (expression : Expression) :
    (expression.cut room).kind = expression.kind := by
  rcases Int.lt_or_le room 0 with small | large
  · rw [cut_of_neg small]
    rfl
  · rw [cut_of_nonneg large, kind_cutParts]

@[simp] theorem span_cut (room : Int) (expression : Expression) :
    (expression.cut room).span = expression.span := by
  rcases Int.lt_or_le room 0 with small | large
  · rw [cut_of_neg small]
    rfl
  · rw [cut_of_nonneg large, span_cutParts]

theorem cut_cut_of_parts {room more : Int} (less : room ≤ more) (expression : Expression)
    (parts : (expression.cutParts (more - 1)).cutParts (room - 1) =
      expression.cutParts (room - 1)) :
    (expression.cut more).cut room = expression.cut room := by
  rcases Int.lt_or_le room 0 with small | large
  · rw [cut_of_neg small, cut_of_neg small, kind_cut, span_cut]
  · rw [cut_of_nonneg large, cut_of_nonneg large, cut_of_nonneg (Int.le_trans large less), parts]

mutual

/-- Cutting again, with less room, is cutting with less room. -/
theorem cut_cut {room more : Int} (less : room ≤ more) :
    ∀ expression : Expression, (expression.cut more).cut room = expression.cut room
  | identifier name span => cut_cut_of_parts less (identifier name span) rfl
  | string value span => cut_cut_of_parts less (string value span) rfl
  | other kind span => cut_cut_of_parts less (other kind span) rfl
  | object members span => by
    refine cut_cut_of_parts less (object members span) ?_
    rw [cutParts, cutParts, cutParts, cutMembers_cutMembers (by omega) members]
  | call callee arguments span => by
    refine cut_cut_of_parts less (call callee arguments span) ?_
    rw [cutParts, cutParts, cutParts, cut_cut (by omega) callee,
      cutAll_cutAll (by omega) arguments]

theorem cutAll_cutAll {room more : Int} (less : room ≤ more) :
    ∀ expressions : List Expression,
      cutAll room (cutAll more expressions) = cutAll room expressions
  | [] => by rw [cutAll]
  | expression :: rest => by
    rw [cutAll, cutAll, cutAll, cut_cut less expression, cutAll_cutAll less rest]

theorem cutMembers_cutMembers {room more : Int} (less : room ≤ more) :
    ∀ members : List Member,
      cutMembers room (cutMembers more members) = cutMembers room members
  | [] => by rw [cutMembers]
  | member :: rest => by
    rw [cutMembers, cutMembers, cutMembers, cutMember_cutMember less member,
      cutMembers_cutMembers less rest]

theorem cutMember_cutMember {room more : Int} (less : room ≤ more) :
    ∀ member : Member, cutMember room (cutMember more member) = cutMember room member
  | .pair key value span => by rw [cutMember, cutMember, cutMember, cut_cut less value]
  | .shorthand name span => by rw [cutMember]
  | .method key span => by rw [cutMember]
  | .other kind span => by rw [cutMember]

end

end ModuleFence.Expression
