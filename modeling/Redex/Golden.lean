import Redex.Command.Flag
import Redex.Files
import Redex.Session
import Redex.Term.Parser
import Redex.Token.Lexer

/-! # Golden reductions

    A list of expressions with their normal forms, among them arithmetic on Church numerals,
    and its form as a file. -/

namespace Redex.Golden

/-! ### Church numerals -/

/-- The text of `f` applied `n` times to `x`. -/
def churchBody (n : Nat) : String :=
  String.join (List.replicate n "f (") ++ "x" ++ String.join (List.replicate n ")")

/-- The text of the Church numeral of `n`. -/
def church (n : Nat) : String :=
  "(λf.λx." ++ churchBody n ++ ")"

/-! ### Cases -/

/-- What a reduction ends with: a normal form, or an error by its name. -/
inductive Expected where
  | output (text : String)
  | error (name : String)
deriving DecidableEq, Repr

/-- An expression and what its reduction ends with. -/
structure Case where
  name : String
  input : String
  expected : Expected
deriving DecidableEq, Repr

/-- The golden reductions. -/
def cases : List Case :=
  [ -- Identity
    ⟨"001_id", "λx.x", .output "λx.x"⟩,
    ⟨"002_id_id", "(λx.x) (λy.y)", .output "λy.y"⟩,
    -- Erasure
    ⟨"003_k_1", "(λx.λy.x) a b", .output "a"⟩,
    ⟨"004_k_2", "(λx.λy.y) a b", .output "b"⟩,
    ⟨"005_erase_complex", "(λx.λy.x) a ((λz.z) b)", .output "a"⟩,
    -- Sharing
    ⟨"006_s_1", "(λx.λy.λz.x z (y z)) (λa.λb.a) (λc.λd.c) e", .output "e"⟩,
    ⟨"007_s_2", "(λx.λy.λz.x z (y z)) (λa.λb.b) (λc.λd.c) e", .output "λd.e"⟩,
    -- Church numerals
    ⟨"010_zero", church 0 ++ " f x", .output "x"⟩,
    ⟨"011_one", church 1 ++ " f x", .output (churchBody 1)⟩,
    ⟨"012_two", church 2 ++ " f x", .output (churchBody 2)⟩,
    ⟨"013_succ_0", "(λn.λf.λx.f (n f x)) " ++ church 0 ++ " f x", .output (churchBody 1)⟩,
    ⟨"014_succ_1", "(λn.λf.λx.f (n f x)) " ++ church 1 ++ " f x", .output (churchBody 2)⟩,
    ⟨"015_add_1_1", "(λm.λn.λf.λx.m f (n f x)) " ++ church 1 ++ " " ++ church 1 ++ " f x",
      .output (churchBody 2)⟩,
    ⟨"016_mul_2_2", "(λm.λn.λf.m (n f)) " ++ church 2 ++ " " ++ church 2 ++ " f x",
      .output (churchBody 4)⟩,
    ⟨"017_mul_2_3", "(λm.λn.λf.m (n f)) " ++ church 2 ++ " " ++ church 3 ++ " f x",
      .output (churchBody 6)⟩,
    -- Truth values
    ⟨"020_true", "(λx.λy.x) a b", .output "a"⟩,
    ⟨"021_false", "(λx.λy.y) a b", .output "b"⟩,
    ⟨"022_not_true", "(λb.b (λx.λy.y) (λx.λy.x)) (λx.λy.x) a b", .output "b"⟩,
    ⟨"023_not_false", "(λb.b (λx.λy.y) (λx.λy.x)) (λx.λy.y) a b", .output "a"⟩,
    ⟨"024_and_true_true", "(λp.λq.p q p) (λx.λy.x) (λx.λy.x) a b", .output "a"⟩,
    ⟨"025_and_true_false", "(λp.λq.p q p) (λx.λy.x) (λx.λy.y) a b", .output "b"⟩,
    -- Pairs
    ⟨"030_pair_fst", "(λp.p (λx.λy.x)) ((λx.λy.λf.f x y) a b)", .output "a"⟩,
    ⟨"031_pair_snd", "(λp.p (λx.λy.y)) ((λx.λy.λf.f x y) a b)", .output "b"⟩,
    -- Sharing
    ⟨"051_share_app", "(λf.f (f x)) (λy.y)", .output "x"⟩,
    ⟨"070_share_complex", "(λx.x (x a)) (λy.y)", .output "a"⟩,
    ⟨"071_erase_shared", "(λx.λy.y) ((λz.z) a) b", .output "b"⟩,
    -- Nested abstractions
    ⟨"080_nested_1", "λx.λy.λz.x y z", .output "λx.λy.λz.x y z"⟩,
    ⟨"081_nested_app", "(λx.λy.x y) a b", .output "a b"⟩,
    ⟨"082_under_binder", "λz.(λx.x) z", .output "λz.z"⟩,
    -- Free variables
    ⟨"090_free_1", "x", .output "x"⟩,
    ⟨"091_free_app", "x y", .output "x y"⟩,
    ⟨"092_free_abs", "λy.x y", .output "λy.x y"⟩,
    -- Mixed
    ⟨"100_mixed_1", "(λx.x) ((λy.y) a)", .output "a"⟩,
    -- Capture and shadowing
    ⟨"110_capture", "(λx.λy.x) y", .output "λy1.y"⟩,
    ⟨"111_capture_twice", "(λx.λy.λz.x y z) y z", .output "λz1.y z z1"⟩,
    ⟨"112_shadow", "(λx.λx.x) a", .output "λx.x"⟩,
    -- Evaluation order
    ⟨"120_lazy_argument", "(λx.λy.y) ((λx.x x) (λx.x x)) z", .output "z"⟩,
    ⟨"121_omega", "(λx.x x) (λx.x x)", .error "ReductionOutOfBounds"⟩]

/-- The written form of the expression that a text spells, if it spells one. -/
def canonical? (text : String) : Option String :=
  match Token.scan text with
  | .error _ => none
  | .ok tokens =>
    match Term.ofTokens .untyped tokens with
    | .error _ => none
    | .ok t => some t.render

/-- A case with its texts in written form. -/
def Case.canonical? (c : Case) : Option Case := do
  let input ← Golden.canonical? c.input
  match c.expected with
  | .output text => return { c with input, expected := .output (← Golden.canonical? text) }
  | .error _ => return { c with input }

/-! ### The file -/

/-- The lines of a case. -/
def Case.render (c : Case) : String :=
  "- name: " ++ c.name ++ "\n  input: " ++ c.input ++ "\n" ++
    match c.expected with
    | .output text => "  output: " ++ text ++ "\n"
    | .error name => "  error: " ++ name ++ "\n"

/-- The text of the file. -/
def fileText (cases : List Case) : String :=
  "# Code generated by cmd/gentests. DO NOT EDIT.\n" ++ String.join (cases.map (·.render))

/-- The file that is written if no other is asked for. -/
def defaultPath : String := "pkg/reducer/testdata/reductions.yaml"

def flags : List Command.Flag :=
  [⟨"o", .text, "output file (default " ++ Text.quote defaultPath ++ ")"⟩]

/-- Writes the golden reductions to a file.  Returns the exit code, what is printed and the
    files afterwards. -/
def generate (files : Files) (arguments : List String) : UInt8 × Printed × Files :=
  match Command.Flag.parse flags arguments with
  | .error e =>
    (if e = .help then 0 else 2, { stderr := Command.Flag.refusal "gentests" flags e }, files)
  | .ok (values, _) =>
    let path := Command.Flag.textD values "o" defaultPath
    let written := cases.filterMap Case.canonical?
    match files.makeFolders (Path.parent path) with
    | .error (folder, e) =>
      (1, { stderr := "mkdir " ++ folder ++ ": " ++ e.message ++ "\n" }, files)
    | .ok files =>
      match files.write path (fileText written) with
      | .error e => (1, { stderr := "open " ++ path ++ ": " ++ e.message ++ "\n" }, files)
      | .ok files =>
        (0, { stdout := "Generated " ++ toString written.length ++ " tests\n" }, files)

end Redex.Golden
