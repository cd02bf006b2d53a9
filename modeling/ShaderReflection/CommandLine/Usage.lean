/-! The texts that explain the command line, set for eighty columns. -/
namespace ShaderReflection.CommandLine

def versionText : String := "reflc 0.1.0\n"

def usageText : String :=
  "usage: reflc [-h] [-o OUTPUT_DIR] [--shader-name SHADER_NAME]
             [--header-file-name HEADER_FILE_NAME]
             [--template-dir TEMPLATE_DIR] [--no-json] [--dump-document] [-v]
             [--version]
             [input]
"

def helpText : String := usageText ++ "
Reflect a SPIR-V assembly shader into C++ layout sources

positional arguments:
  input                 Input .spvasm file

options:
  -h, --help            show this help message and exit
  -o OUTPUT_DIR, --output-dir OUTPUT_DIR
                        Output directory (default: same as input file)
  --shader-name SHADER_NAME
                        Shader name used in generated code (default: input
                        file stem)
  --header-file-name HEADER_FILE_NAME
                        Name of the generated header (default: <stem>.h)
  --template-dir TEMPLATE_DIR
                        Directory with reflection.h.j2/reflection.cc.j2
                        overriding the built-in templates
  --no-json             Skip .json reflection document emission
  --dump-document       Print the reflection document as JSON and exit
  -v, --verbose         Increase log verbosity (-v info, -vv debug)
  --version             show program's version number and exit
"

end ShaderReflection.CommandLine
