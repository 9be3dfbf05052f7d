import NodeShader.Wgsl.Code

/-!
Shader programs: the statements of a fragment body and the fixed text around them.
-/

namespace NodeShader

/-- A statement of the fragment body. -/
inductive Statement where
  /-- Declares the value of a node. -/
  | declare (identifier : String) (value : Typed)
  /-- Sets the color of the fragment. -/
  | output (color : Code)

namespace Statement

def text : Statement → String
  | .declare identifier value =>
    "let " ++ identifier ++ ": " ++ value.type.name ++ " = " ++ value.text ++ ";"
  | .output color => "final_color = " ++ color.render ++ ";"

end Statement

namespace Program

/-- Each line with the line break that ends it. -/
def joinLines (lines : List String) : String := String.join (lines.map (· ++ "\n"))

/-- The program of a graph that has no output: it fills the canvas with opaque black. -/
def fallback : String := joinLines [
    "@vertex",
    "fn vs_main(@builtin(vertex_index) vertex_index: u32) -> @builtin(position) vec4f \x7b",
    "    var positions = array<vec2f, 3>(",
    "        vec2f(-1.0, -1.0),",
    "        vec2f(3.0, -1.0),",
    "        vec2f(-1.0, 3.0),",
    "    );",
    "    return vec4f(positions[vertex_index], 0.0, 1.0);",
    "\x7d",
    "",
    "@fragment",
    "fn fs_main() -> @location(0) vec4f \x7b",
    "    return vec4f(0.0, 0.0, 0.0, 1.0);",
    "\x7d"]

/-- What stands before the statements of the fragment body. -/
def header : String := joinLines [
    "struct Uniforms \x7b",
    "    time: f32,",
    "\x7d;",
    "",
    "@group(0) @binding(0)",
    "var<uniform> u: Uniforms;",
    "",
    "struct VSOut \x7b",
    "    @builtin(position) position: vec4f,",
    "    @location(0) uv: vec2f,",
    "\x7d;",
    "",
    "@vertex",
    "fn vs_main(@builtin(vertex_index) vertex_index: u32) -> VSOut \x7b",
    "    var positions = array<vec2f, 3>(",
    "        vec2f(-1.0, -1.0),",
    "        vec2f(3.0, -1.0),",
    "        vec2f(-1.0, 3.0),",
    "    );",
    "    let p = positions[vertex_index];",
    "",
    "    var out: VSOut;",
    "    out.position = vec4f(p, 0.0, 1.0);",
    "    // Clip space to [0,1] with (0,0) at the top-left of the canvas.",
    "    out.uv = vec2f(p.x * 0.5 + 0.5, 0.5 - p.y * 0.5);",
    "    return out;",
    "\x7d",
    "",
    "@fragment",
    "fn fs_main(in: VSOut) -> @location(0) vec4f \x7b",
    "    let uv = in.uv;",
    "    let u_time = u.time;",
    "    var final_color = vec3f(0.0, 0.0, 0.0);"]

/-- What stands after the statements of the fragment body. -/
def footer : String := joinLines [
    "    return vec4f(final_color, 1.0);",
    "\x7d"]

/-- The program with the given statements in its fragment body. -/
def text (statements : List String) : String :=
  header ++ joinLines (statements.map ("    " ++ ·)) ++ footer

end Program

end NodeShader
