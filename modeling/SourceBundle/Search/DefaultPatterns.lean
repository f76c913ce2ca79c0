/-!
# The built-in ignore patterns

Patterns for files that hardly ever belong into a bundle, in groups.
-/

namespace SourceBundle.Search.DefaultPatterns

/-- Files of version control and ignore files. -/
def versionControl : List String :=
  [".git/**", ".hg/**", ".hgignore", ".svn/**", "**/.gitignore", "**/.gitattributes",
   "**/.gitkeep", "**/.keep", "**/.codecrawlignore"]

/-- Directories of dependencies. -/
def dependencies : List String :=
  ["**/node_modules/**", "**/bower_components/**", "**/jspm_packages/**", "vendor/**",
   "**/.bundle/**", "**/.gradle/**", "target/**"]

/-- Logs and data of running programs. -/
def runtimeData : List String :=
  ["logs/**", "**/*.log", "**/npm-debug.log*", "**/yarn-debug.log*", "**/yarn-error.log*",
   "pids/**", "*.pid", "*.seed", "*.pid.lock"]

/-- Coverage reports and caches. -/
def caches : List String :=
  ["lib-cov/**", "coverage/**", ".nyc_output/**", ".grunt/**", ".lock-wscript", "**/.npm/**",
   ".eslintcache", ".rollup.cache/**", ".webpack.cache/**", ".parcel-cache/**", ".sass-cache/**",
   "*.cache", ".node_repl_history", "*.tgz", "**/.yarn/**", "**/.yarn-integrity"]

/-- Environment files and what frameworks build. -/
def buildOutput : List String :=
  [".env", ".next/**", ".nuxt/**", ".vuepress/dist/**", ".serverless/**", ".fusebox/**",
   ".dynamodb/**", "dist/**", "build/**", "out/**", "tmp/**", "temp/**"]

/-- Files of editors and operating systems. -/
def editors : List String :=
  ["**/.DS_Store", "**/Thumbs.db", ".idea/**", ".vscode/**", "**/*.swp", "**/*.swo", "**/*.swn",
   "**/*.bak"]

/-- Lock files of package managers. -/
def lockFiles : List String :=
  ["**/package-lock.json", "**/yarn.lock", "**/pnpm-lock.yaml", "**/bun.lockb", "**/bun.lock",
   "**/Cargo.lock", "**/composer.lock", "**/Gemfile.lock", "**/go.sum", "**/mix.lock",
   "**/Pipfile.lock", "**/poetry.lock", "**/stack.yaml.lock", "**/cabal.project.freeze"]

/-- What Python tools leave behind. -/
def python : List String :=
  ["**/__pycache__/**", "**/*.py[cod]", "**/venv/**", "**/.venv/**", "**/.pytest_cache/**",
   "**/.mypy_cache/**", "**/.ipynb_checkpoints/**"]

/-- What Rust tools leave behind. -/
def rust : List String :=
  ["**/target/**", "**/*.rs.bk", "**/Cargo.toml.orig"]

/-- Documents written by earlier runs. -/
def ownOutput : List String :=
  ["**/codecrawl-output.*"]

/-- All built-in patterns, in the order in which they are tried. -/
def all : List String :=
  versionControl ++ dependencies ++ runtimeData ++ caches ++ buildOutput ++
    editors ++ lockFiles ++ python ++ rust ++ ownOutput

end SourceBundle.Search.DefaultPatterns
