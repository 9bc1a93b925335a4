import ThreadSystemTools.Text.Strings
import ThreadSystemTools.Text.Substitution
import ThreadSystemTools.Text.Regex
import ThreadSystemTools.Migration.Pattern
import ThreadSystemTools.Migration.Scan
import ThreadSystemTools.Migration.LineIdempotence
import ThreadSystemTools.Migration.TokenCount
import ThreadSystemTools.Migration.Include
import ThreadSystemTools.Migration.LineChanges
import ThreadSystemTools.Migration.MigrateFile
import ThreadSystemTools.Migration.FileSystem
import ThreadSystemTools.Migration.Runner
import ThreadSystemTools.Performance.Json
import ThreadSystemTools.Performance.Dashboard
import ThreadSystemTools.Performance.Readme
import ThreadSystemTools.Performance.Regression
import ThreadSystemTools.Performance.Badge
import ThreadSystemTools.Performance.Report
