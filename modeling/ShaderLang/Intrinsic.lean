/-
**Intrinsic functions.**

Fifty-eight function names belong to the language itself.

Main definitions:

* `ShaderLang.Intrinsic`, `ShaderLang.Intrinsic.catalogue` — the intrinsic functions;
* `ShaderLang.Intrinsic.name`, `ShaderLang.Intrinsic.ofName` — their names.

Main results:

* `ShaderLang.Intrinsic.ofName_name`, `ShaderLang.Intrinsic.name_of_ofName` — a name belongs to one
  intrinsic function at most.
-/

set_option relaxedAutoImplicit false
set_option autoImplicit false

namespace ShaderLang

/-- The functions that the language defines. -/
inductive Intrinsic where
  | abs
  | acos
  | all
  | any
  | asin
  | atan
  | atan2
  | ceil
  | clamp
  | clip
  | cos
  | cosh
  | cross
  | ddx
  | ddy
  | degrees
  | determinant
  | distance
  | dot
  | exp
  | exp2
  | faceForward
  | floor
  | fmod
  | frac
  | fwidth
  | length
  | lerp
  | lit
  | log
  | log10
  | log2
  | max
  | min
  | mul
  | normalize
  | pow
  | radians
  | reflect
  | refract
  | round
  | rsqrt
  | saturate
  | sign
  | sin
  | sinh
  | smoothStep
  | sqrt
  | step
  | tan
  | tanh
  | tex1D
  | tex2D
  | tex2DLod
  | tex2DProj
  | tex3D
  | texCube
  | transpose
  deriving DecidableEq, Repr

namespace Intrinsic

/-- The intrinsic functions in alphabetical order. -/
def catalogue : List Intrinsic :=
  [.abs, .acos, .all, .any, .asin, .atan, .atan2, .ceil, .clamp, .clip, .cos, .cosh, .cross,
    .ddx, .ddy, .degrees, .determinant, .distance, .dot, .exp, .exp2, .faceForward, .floor,
    .fmod, .frac, .fwidth, .length, .lerp, .lit, .log, .log10, .log2, .max, .min, .mul,
    .normalize, .pow, .radians, .reflect, .refract, .round, .rsqrt, .saturate, .sign, .sin,
    .sinh, .smoothStep, .sqrt, .step, .tan, .tanh, .tex1D, .tex2D, .tex2DLod, .tex2DProj, .tex3D,
    .texCube, .transpose]

/-- The name of an intrinsic function. -/
def name : Intrinsic → String
  | .abs => "abs"
  | .acos => "acos"
  | .all => "all"
  | .any => "any"
  | .asin => "asin"
  | .atan => "atan"
  | .atan2 => "atan2"
  | .ceil => "ceil"
  | .clamp => "clamp"
  | .clip => "clip"
  | .cos => "cos"
  | .cosh => "cosh"
  | .cross => "cross"
  | .ddx => "ddx"
  | .ddy => "ddy"
  | .degrees => "degrees"
  | .determinant => "determinant"
  | .distance => "distance"
  | .dot => "dot"
  | .exp => "exp"
  | .exp2 => "exp2"
  | .faceForward => "faceforward"
  | .floor => "floor"
  | .fmod => "fmod"
  | .frac => "frac"
  | .fwidth => "fwidth"
  | .length => "length"
  | .lerp => "lerp"
  | .lit => "lit"
  | .log => "log"
  | .log10 => "log10"
  | .log2 => "log2"
  | .max => "max"
  | .min => "min"
  | .mul => "mul"
  | .normalize => "normalize"
  | .pow => "pow"
  | .radians => "radians"
  | .reflect => "reflect"
  | .refract => "refract"
  | .round => "round"
  | .rsqrt => "rsqrt"
  | .saturate => "saturate"
  | .sign => "sign"
  | .sin => "sin"
  | .sinh => "sinh"
  | .smoothStep => "smoothstep"
  | .sqrt => "sqrt"
  | .step => "step"
  | .tan => "tan"
  | .tanh => "tanh"
  | .tex1D => "tex1D"
  | .tex2D => "tex2D"
  | .tex2DLod => "tex2Dlod"
  | .tex2DProj => "tex2Dproj"
  | .tex3D => "tex3D"
  | .texCube => "texCUBE"
  | .transpose => "transpose"

/-- The intrinsic function with a given name. -/
def ofName (name : String) : Option Intrinsic := catalogue.find? fun i => i.name == name

theorem mem_catalogue (i : Intrinsic) : i ∈ catalogue := by
  cases i <;> decide

theorem name_of_ofName {name : String} {i : Intrinsic} (h : ofName name = some i) :
    i.name = name := by
  simpa using List.find?_some h

theorem ofName_name (i : Intrinsic) : ofName i.name = some i := by
  have h : ∀ i ∈ catalogue, ofName i.name = some i := by decide +kernel
  exact h i (mem_catalogue i)

end Intrinsic

end ShaderLang
